import MulticastTunnel.Ip.Packet
import MulticastTunnel.Proofs.Checksum

/-!
# Headers as they are written

The bytes of the headers that are written by `Ip.headerV4` and `Ip.headerV6`, and the length that
is told by a header alone, whatever follows it.

* `Ip.appendHeaderV4_eq`, `Ip.headerV4_eq`, `Ip.headerV6_eq` : the header that is written if all
  lengths fit.
* `IpPacket.declaredLength_eq_ok_iff` : the length that a header declares.
* `IpPacket.declaredLength_append` : it does not depend on what follows the packet.
-/

namespace MulticastTunnel

theorem Outcome.fitting_of_lt {bits value : Nat} (h : value < 2 ^ bits) :
    Outcome.fitting bits value = .ok value := by
  rw [fitting, Nat.shiftLeft_eq, Nat.one_mul, if_pos h]

namespace Bytes

theorem between_append {start stop : Nat} {front part back : Bytes}
    (hfront : front.length = start) (hpart : start + part.length = stop) :
    between start stop (front ++ (part ++ back)) = part := by
  subst hfront hpart
  simp [between]

theorem patchWord_append {position : Nat} {front : Bytes} (h : front.length = position)
    (word back : Bytes) (two : word.length = 2) (value : UInt16) :
    patchWord position value (front ++ word ++ back) = front ++ ofNat 2 value.toNat ++ back := by
  subst h
  simp [patchWord, List.append_assoc, ← two]

end Bytes

theorem Outcome.slice_append {start stop : Nat} {front part back : Bytes}
    (hfront : front.length = start) (hpart : start + part.length = stop) :
    Outcome.slice start stop (front ++ (part ++ back)) = .ok part := by
  rw [slice, Bytes.between_append hfront hpart, if_pos]
  subst hfront hpart
  simp

namespace Ip

/-! ### Headers -/

namespace FieldsV4

/-- The length of the header, with its options. -/
def headerLength (fields : FieldsV4) : Nat := headerLengthV4 + fields.options.length

/-- The header of a packet with `payloadLength` bytes of payload, with a given checksum. -/
def bytes (fields : FieldsV4) (payloadLength : Nat) (sum : UInt16) : Bytes :=
  [UInt8.ofNat (0x40 ||| fields.headerLength / 4)] ++ ([fields.typeOfService] ++
    (Bytes.ofNat 2 (fields.headerLength + payloadLength) ++ ([0, 0] ++ (Bytes.ofNat 2 0 ++
    ([fields.timeToLive] ++ ([fields.protocol] ++ (Bytes.ofNat 2 sum.toNat ++
    (Bytes.ofNat 4 fields.source.toNat ++ (Bytes.ofNat 4 fields.destination.toNat ++
    fields.options)))))))))

variable {fields : FieldsV4} {n : Nat} {sum : UInt16}

@[simp] theorem length_bytes : (fields.bytes n sum).length = fields.headerLength := by
  simp [bytes, headerLength, headerLengthV4]
  omega

/-- The checksum stands where words begin. -/
theorem exists_bytes_eq (fields : FieldsV4) (n : Nat) : ∃ front back : Bytes,
    front.length = 10 ∧ ∀ sum, fields.bytes n sum = front ++ Bytes.ofNat 2 sum.toNat ++ back := by
  refine ⟨[UInt8.ofNat (0x40 ||| fields.headerLength / 4), fields.typeOfService] ++
      Bytes.ofNat 2 (fields.headerLength + n) ++ [0, 0] ++ Bytes.ofNat 2 0 ++
      [fields.timeToLive, fields.protocol],
    Bytes.ofNat 4 fields.source.toNat ++ Bytes.ofNat 4 fields.destination.toNat ++ fields.options,
    by simp, fun sum => ?_⟩
  simp [bytes]

theorem internet_bytes (fields : FieldsV4) (n : Nat) :
    Checksum.internet [fields.bytes n (Checksum.internet [fields.bytes n 0])] = 0 := by
  obtain ⟨front, back, length, shape⟩ := exists_bytes_eq fields n
  have even : Even (([] : List Bytes).flatten ++ front).length := by
    rw [List.flatten_nil, List.nil_append, length]
    decide
  rw [shape, shape]
  exact Checksum.internet_sealed [] even

end FieldsV4

theorem appendHeaderV4_eq (buffer : Bytes) {fields : FieldsV4} {n : Nat}
    (words : fields.headerLength / 4 < 2 ^ 8) (total : fields.headerLength + n < 2 ^ 16) :
    appendHeaderV4 buffer fields n =
      .ok (buffer ++ fields.bytes n (Checksum.internet [fields.bytes n 0])) := by
  obtain ⟨front, back, length, shape⟩ := FieldsV4.exists_bytes_eq fields n
  have patched : Bytes.patchWord (buffer.length + 10) (Checksum.internet [fields.bytes n 0])
      (buffer ++ fields.bytes n 0) =
        buffer ++ fields.bytes n (Checksum.internet [fields.bytes n 0]) := by
    rw [shape (Checksum.internet _), shape 0]
    simp only [← List.append_assoc]
    exact Bytes.patchWord_append (by rw [List.length_append, length]) _ back rfl _
  have unsealed : buffer ++ [UInt8.ofNat (0x40 ||| fields.headerLength / 4), fields.typeOfService]
      ++ Bytes.ofNat 2 (fields.headerLength + n)
      ++ [0, 0, 0, 0, fields.timeToLive, fields.protocol, 0, 0]
      ++ Bytes.ofNat 4 fields.source.toNat ++ Bytes.ofNat 4 fields.destination.toNat
      ++ fields.options = buffer ++ fields.bytes n 0 := by
    simp only [List.append_assoc]
    rfl
  unfold appendHeaderV4
  rw [← FieldsV4.headerLength]
  simp only [Outcome.fitting_of_lt words, Outcome.fitting_of_lt total, Outcome.ok_bind, unsealed,
    List.drop_left, patched]
  rfl

theorem headerV4_eq {fields : FieldsV4} {n : Nat} (words : fields.headerLength / 4 < 2 ^ 8)
    (total : fields.headerLength + n < 2 ^ 16) :
    headerV4 fields n = .ok (fields.bytes n (Checksum.internet [fields.bytes n 0])) :=
  appendHeaderV4_eq [] words total

/-- The header of a packet with `payloadLength` bytes behind it. -/
def FieldsV6.bytes (fields : FieldsV6) (payloadLength : Nat) : Bytes :=
  [0x60, 0, 0, 0] ++ (Bytes.ofNat 2 payloadLength ++ ([fields.nextHeader] ++ ([fields.hopLimit] ++
    (Bytes.ofNat 16 fields.source.toNat ++ Bytes.ofNat 16 fields.destination.toNat))))

@[simp] theorem FieldsV6.length_bytes {fields : FieldsV6} {n : Nat} :
    (fields.bytes n).length = headerLengthV6 := by
  simp [bytes, headerLengthV6]

theorem headerV6_eq {fields : FieldsV6} {n : Nat} (fits : n < 2 ^ 16) :
    headerV6 fields n = .ok (fields.bytes n) := by
  rw [headerV6, Outcome.fitting_of_lt fits, Outcome.ok_bind]
  simp [FieldsV6.bytes, pure, Except.pure]

end Ip

namespace IpPacket

/-! ### Declared lengths -/

/-- What the header at the start of some bytes tells about the length of the packet: the length of
the header without options, and where the packet ends. -/
def declares (bytes : Bytes) : Option (Nat × Nat) :=
  match bytes with
  | [] => none
  | first :: _ =>
    match first.toNat / 16 with
    | 4 => some (Ip.headerLengthV4, Bytes.toNat (bytes.between 2 4))
    | 6 => some (Ip.headerLengthV6, Ip.headerLengthV6 + Bytes.toNat (bytes.between 4 6))
    | _ => none

theorem parse_field_eq_ok_iff {what : String} {header skipped width n : Nat} {bytes : Bytes}
    {g : Nat → Nat} (room : skipped + width ≤ header) :
    Reader.parse (do
      Reader.require what header
      let _ ← Reader.take skipped
      return g (← Reader.word what width)) bytes = .ok n ↔
    header ≤ bytes.length ∧ n = g (Bytes.toNat (bytes.between skipped (skipped + width))) := by
  simp only [Reader.parse_eq_ok_iff, Reader.bind_eq_ok_iff, Reader.require_eq_ok_iff,
    Reader.take_eq_ok_iff, Reader.word_eq_ok_iff, Reader.pure_eq_ok_iff]
  simp [Bytes.between]
  grind

/-- A length is declared if the header is there, and what it declares is. -/
theorem declaredLength_eq_ok_iff {bytes : Bytes} {length : Nat} :
    declaredLength bytes = .ok length ↔ ∃ header, declares bytes = some (header, length) ∧
      header ≤ bytes.length ∧ length ≤ bytes.length := by
  obtain _ | ⟨first, rest⟩ := bytes
  · exact ⟨(nomatch ·), fun ⟨_, h, _⟩ => nomatch h⟩
  have start : (Reader.u8 "IP header").parse (first :: rest) = .ok first :=
    (Reader.reads_u8 first).parse rest
  have total {k n : Nat} {f : Failure} :
      (if k < n then .error f else pure n : Outcome Nat) = .ok length ↔ n = length ∧ n ≤ k := by
    split <;> simp [pure, Except.pure] <;> omega
  have fieldV4 (n : Nat) : Reader.parse (do
        Reader.require "IPv4 header" Ip.headerLengthV4
        let _ ← Reader.take 2
        Reader.word "IPv4 header" 2) (first :: rest) = .ok n ↔
      Ip.headerLengthV4 ≤ (first :: rest).length ∧
        n = Bytes.toNat (Bytes.between 2 4 (first :: rest)) := by
    simpa only [id, bind_pure] using
      parse_field_eq_ok_iff (g := id) (by decide : 2 + 2 ≤ Ip.headerLengthV4)
  simp only [declaredLength, start, Outcome.ok_bind, declares]
  generalize first.toNat / 16 = version
  split
  · simp only [Outcome.bind_eq_ok_iff, total, fieldV4, Option.some.injEq, Prod.mk.injEq]
    grind
  · simp only [Outcome.bind_eq_ok_iff, total,
      parse_field_eq_ok_iff (by decide : 4 + 2 ≤ Ip.headerLengthV6), Option.some.injEq,
      Prod.mk.injEq]
    grind
  · simp [bind, Except.bind]

variable {bytes packet : Bytes} {header length : Nat} {p : IpPacket}

theorem declares_append (room : header ≤ packet.length) (extra : Bytes) :
    declares (packet ++ extra) = some (header, length) ↔
      declares packet = some (header, length) := by
  have field {start stop : Nat} (h : stop ≤ packet.length) :
      (packet ++ extra).between start stop = packet.between start stop := by
    rw [Bytes.between, Bytes.between, List.drop_append, List.take_append]
    simp
    omega
  cases packet with
  | nil =>
    obtain rfl : header = 0 := by simpa using room
    cases extra <;> grind [declares, Ip.headerLengthV4, Ip.headerLengthV6]
  | cons first rest =>
    simp only [List.cons_append, declares] at field ⊢
    split
    · simp only [Option.some.injEq, Prod.mk.injEq]
      refine and_congr_right fun declared => ?_
      subst declared
      rw [field (le_trans (by decide) room)]
    · simp only [Option.some.injEq, Prod.mk.injEq]
      refine and_congr_right fun declared => ?_
      subst declared
      rw [field (le_trans (by decide) room)]
    · rfl

theorem declaredLength_append (h : declaredLength packet = .ok length) (extra : Bytes) :
    declaredLength (packet ++ extra) = .ok length := by
  obtain ⟨header, declared, headerRoom, room⟩ := declaredLength_eq_ok_iff.1 h
  refine declaredLength_eq_ok_iff.2 ⟨header, (declares_append headerRoom extra).2 declared, ?_, ?_⟩
  all_goals
    rw [List.length_append]
    omega

end IpPacket

end MulticastTunnel
