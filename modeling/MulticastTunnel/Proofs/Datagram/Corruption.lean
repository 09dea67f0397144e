import MulticastTunnel.Proofs.Bytes.Consuming
import MulticastTunnel.Proofs.Checksum.Register
import MulticastTunnel.Proofs.Datagram
import MulticastTunnel.Proofs.Ip.Extent

/-!
# Corrupted datagrams

A verified checksum notices every change within one word of the ports or the payload of a datagram,
unless the word was zero and became all ones, or the other way round: these are the only two words
that the sum of words modulo 65535 does not tell apart. A change within a single byte never does
that.

* `WordChange` : two byte strings that differ within one word.
* `Checksum.internet_after_iff` : when the checksum does not notice a changed word.
* `Datagram.withMessage` : the datagram that a changed message carries.
* `Datagram.decapsulate_after` : what is read from a changed packet.
* `Datagram.corruption_detected` : **a verified checksum notices corruption within one word**.
-/

namespace MulticastTunnel

/-- A byte string in which one word is changed. A last byte without a partner is a word that is
padded with zero. -/
structure WordChange where
  front : Bytes
  old : Bytes
  new : Bytes
  back : Bytes
  width : old.length = 2 ∨ old.length = 1 ∧ back = []
  same_width : new.length = old.length
  differ : new ≠ old

namespace WordChange

variable {c : WordChange} {start : Nat}

/-- The byte string before the change. -/
def before (c : WordChange) : Bytes := c.front ++ (c.old ++ c.back)

/-- The byte string after the change. -/
def after (c : WordChange) : Bytes := c.front ++ (c.new ++ c.back)

/-- The word was zero and became all ones, or the other way round. -/
def SwapsZeros (c : WordChange) : Prop :=
  Checksum.wordSum c.old = 0 ∧ Checksum.wordSum c.new = 0xffff ∨
    Checksum.wordSum c.old = 0xffff ∧ Checksum.wordSum c.new = 0

instance (c : WordChange) : Decidable c.SwapsZeros := inferInstanceAs (Decidable (_ ∨ _))

/-- The changed word is one of the words of a UDP message that begins at `start`, but not the third,
its length, and not the fourth, its checksum. -/
def Strikes (c : WordChange) (start : Nat) : Prop :=
  ∃ n, c.front.length = start + 2 * n ∧ n ≠ 2 ∧ n ≠ 3

theorem length_after (c : WordChange) : c.after.length = c.before.length := by
  simp only [after, before, List.length_append, c.same_width]

theorem exists_behind {header message : Bytes} (h : c.before = header ++ message)
    (strikes : c.Strikes header.length) :
    ∃ c' : WordChange, c'.before = message ∧ c.after = header ++ c'.after ∧ c'.Strikes 0 ∧
      (c'.SwapsZeros ↔ c.SwapsZeros) := by
  obtain ⟨n, place, notLength, notSum⟩ := strikes
  obtain ⟨front, split⟩ : header <+: c.front :=
    List.prefix_of_prefix_length_le ⟨message, h.symm⟩ ⟨c.old ++ c.back, rfl⟩ (by omega)
  have length : front.length = 2 * n := by
    rw [← split, List.length_append] at place
    omega
  refine ⟨{ c with front }, ?_, ?_, ⟨n, by simpa using length, notLength, notSum⟩, Iff.rfl⟩
  · rw [before, ← split, List.append_assoc] at h
    exact List.append_cancel_left h
  · rw [after, ← split, List.append_assoc]
    rfl

theorem between_after (c : WordChange) (strikes : c.Strikes 0) (long : 8 ≤ c.before.length) :
    c.after.between 4 8 = c.before.between 4 8 := by
  obtain ⟨n, place, notLength, notSum⟩ := strikes
  simp only [before, List.length_append] at long
  rcases Nat.lt_or_ge n 2 with ports | payload
  · have two : c.old.length = 2 := by
      rcases c.width with two | ⟨one, last⟩
      · exact two
      · rw [last, List.length_nil] at long
        omega
    have behind (word : Bytes) (width : word.length = 2) :
        (c.front ++ (word ++ c.back)).drop 4 = c.back.drop (4 - (c.front.length + 2)) := by
      rw [← List.append_assoc, List.drop_append, List.length_append, width,
        List.drop_of_length_le (by rw [List.length_append]; omega), List.nil_append]
    rw [Bytes.between, Bytes.between, after, before, behind _ two,
      behind _ (c.same_width.trans two)]
  · have ahead (tail : Bytes) : (c.front ++ tail).take 8 = c.front.take 8 :=
      List.take_append_of_le_length (by omega)
    exact Bytes.between_alike ((ahead _).trans (ahead _).symm) le_rfl

/-- A change within a single byte does not make zero of all ones, or the other way round. -/
theorem exists_of_byte {front back : Bytes} {b b' : UInt8} (differ : b' ≠ b)
    (inside : start ≤ front.length)
    (outside : ¬ (start + 4 ≤ front.length ∧ front.length < start + 8)) :
    ∃ c : WordChange, c.before = front ++ b :: back ∧ c.after = front ++ b' :: back ∧
      c.Strikes start ∧ ¬ c.SwapsZeros := by
  have lt := b.toNat_lt
  have lt' := b'.toNat_lt
  rcases Nat.even_or_odd' (front.length - start) with ⟨n, even | odd⟩
  · have strikes : ∃ n, front.length = start + 2 * n ∧ n ≠ 2 ∧ n ≠ 3 := ⟨n, by omega⟩
    cases back with
    | nil =>
      refine ⟨⟨front, [b], [b'], [], .inr ⟨rfl, rfl⟩, rfl, by simpa using differ⟩, rfl, rfl,
        strikes, ?_⟩
      simp only [SwapsZeros, Checksum.wordSum]
      omega
    | cons low back =>
      refine ⟨⟨front, [b, low], [b', low], back, .inl rfl, rfl, by simpa using differ⟩, rfl, rfl,
        strikes, ?_⟩
      simp only [SwapsZeros, Checksum.wordSum]
      omega
  · -- the byte is the second half of a word
    rcases List.eq_nil_or_concat front with rfl | ⟨front, high, rfl⟩
    · simp at odd
    · rw [List.concat_eq_append, List.length_append, List.length_singleton] at inside outside odd
      have strikes : ∃ n, front.length = start + 2 * n ∧ n ≠ 2 ∧ n ≠ 3 := ⟨n, by omega⟩
      refine ⟨⟨front, [high, b], [high, b'], back, .inl rfl, rfl, by simpa using differ⟩,
        by simp [before], by simp [after], strikes, ?_⟩
      simp only [SwapsZeros, Checksum.wordSum]
      omega

end WordChange

namespace Checksum

variable {c : WordChange}

theorem wordSum_ne {word word' : Bytes} (width : word.length = 2 ∨ word.length = 1)
    (same : word'.length = word.length) (differ : word' ≠ word) : wordSum word' ≠ wordSum word := by
  rcases width with two | one
  · obtain ⟨high, low, rfl⟩ := List.length_eq_two.1 two
    obtain ⟨high', low', rfl⟩ := List.length_eq_two.1 (same.trans two)
    have := low.toNat_lt
    have := low'.toNat_lt
    intro equal
    simp only [wordSum] at equal
    have highs : high' = high := UInt8.toNat_inj.1 (by omega)
    have lows : low' = low := UInt8.toNat_inj.1 (by omega)
    exact differ (by rw [highs, lows])
  · obtain ⟨high, rfl⟩ := List.length_eq_one_iff.1 one
    obtain ⟨high', rfl⟩ := List.length_eq_one_iff.1 (same.trans one)
    intro equal
    simp only [wordSum] at equal
    have highs : high' = high := UInt8.toNat_inj.1 (by omega)
    exact differ (by rw [highs])

theorem wordSum_append_word {front word back : Bytes} (even : Even front.length)
    (width : word.length = 2 ∨ word.length = 1 ∧ back = []) :
    wordSum (front ++ (word ++ back)) = wordSum front + (wordSum word + wordSum back) := by
  rw [wordSum_append even]
  rcases width with two | ⟨-, rfl⟩
  · rw [wordSum_append (by rw [two]; decide)]
  · rw [List.append_nil]
    rfl

/-- A valid checksum stays valid when a word is changed if and only if the word was zero and became
all ones, or the other way round. -/
theorem internet_after_iff {pseudo : Bytes} (even : Even (pseudo ++ c.front).length)
    (valid : internet [pseudo, c.before] = 0) (nonzero : 0 < wordSum [pseudo, c.after].flatten) :
    internet [pseudo, c.after] = 0 ↔ c.SwapsZeros := by
  have parts (bytes : Bytes) : [pseudo, c.front ++ bytes].flatten =
      (pseudo ++ c.front) ++ bytes := by simp
  have old : wordSum [pseudo, c.before].flatten = _ :=
    (congrArg wordSum (parts _)).trans (wordSum_append_word even c.width)
  have new : wordSum [pseudo, c.after].flatten = _ :=
    (congrArg wordSum (parts _)).trans (wordSum_append_word even (c.same_width ▸ c.width))
  have differ := wordSum_ne (c.width.imp_right And.left) c.same_width c.differ
  have bound := wordSum_le c.old
  have bound' := wordSum_le c.new
  have length : c.old.length ≤ 2 := by
    rcases c.width with two | ⟨one, -⟩ <;> omega
  rw [internet_eq_zero_iff, old] at valid
  rw [new] at nonzero
  rw [internet_eq_zero_iff, new, WordChange.SwapsZeros]
  rw [c.same_width] at bound'
  omega

end Checksum

namespace Bytes

theorem between_append_drop {start stop : Nat} (h : start ≤ stop) (bytes : Bytes) :
    bytes.between start stop ++ bytes.drop stop = bytes.drop start := by
  obtain ⟨width, rfl⟩ := Nat.exists_eq_add_of_le h
  rw [between, Nat.add_sub_cancel_left, ← List.drop_drop, List.take_append_drop]

theorem ofNat_toNat_word {bytes : Bytes} (h : bytes.length = 2) :
    ofNat 2 (UInt16.ofNat (toNat bytes)).toNat = bytes := by
  have lt := toNat_lt bytes
  rw [h] at lt
  rw [UInt16.toNat_ofNat', Nat.mod_eq_of_lt (by omega), ofNat_toNat h]

end Bytes

namespace Datagram

variable {d : Datagram} {packet : Bytes} {sum : UInt16} {c : WordChange}

/-! ### Changed messages -/

/-- The datagram with the ports and the payload of a UDP message. -/
def withMessage (d : Datagram) (udp : Bytes) : Datagram where
  source := .of d.source.address (UInt16.ofNat (udp.field 0 2))
  destination := .of d.destination.address (UInt16.ofNat (udp.field 2 4))
  payload := udp.drop headerLength

theorem bare_withMessage (d : Datagram) (udp : Bytes) :
    (d.withMessage udp).bare = d.withMessage udp := rfl

theorem between_message (d : Datagram) (sum : UInt16) : (d.message sum).between 4 8 =
    Bytes.ofNat 2 (headerLength + d.payload.length) ++ Bytes.ofNat 2 sum.toNat := by
  have shape : d.message sum =
      (Bytes.ofNat 2 d.source.port.toNat ++ Bytes.ofNat 2 d.destination.port.toNat) ++
      ((Bytes.ofNat 2 (headerLength + d.payload.length) ++ Bytes.ofNat 2 sum.toNat) ++
      d.payload) := by
    simp only [message, front, List.append_assoc]
  rw [shape]
  exact Bytes.between_append (by simp) (by simp)

/-- A message of which length and checksum are the same is the message of the datagram with its
ports and payload. -/
theorem message_withMessage {udp : Bytes} (length : udp.length = (d.message sum).length)
    (same : udp.between 4 8 = (d.message sum).between 4 8) :
    (d.withMessage udp).message sum = udp := by
  rw [length_message] at length
  have room : 8 ≤ udp.length := length ▸ Nat.le_add_right ..
  have payload : headerLength + (udp.drop headerLength).length =
      headerLength + d.payload.length := by
    rw [List.length_drop]
    omega
  have source : (udp.between 0 2).length = 2 := by
    rw [Bytes.between, List.length_take, List.length_drop]
    omega
  have destination : (udp.between 2 4).length = 2 := by
    rw [Bytes.between, List.length_take, List.length_drop]
    omega
  rw [between_message] at same
  calc (d.withMessage udp).message sum
      = udp.between 0 2 ++ (udp.between 2 4 ++ (udp.between 4 8 ++ udp.drop 8)) := by
        rw [message, front, withMessage, Endpoint.of, Endpoint.of, Bytes.field, Bytes.field,
          Bytes.ofNat_toNat_word source, Bytes.ofNat_toNat_word destination, payload, same]
        simp only [List.append_assoc]
        rfl
    _ = udp := by
        rw [Bytes.between_append_drop (by decide), Bytes.between_append_drop (by decide),
          Bytes.between_append_drop (by decide), List.drop_zero]

/-! ### Changed packets -/

theorem exists_carriage_of_encapsulate (written : d.encapsulate = .ok packet) :
    d.payload.length ≤ maxPayload ∧ ∃ pseudo header sum,
      Carriage d.source.address d.destination.address (headerLength + d.payload.length) pseudo
        header ∧
      sum ≠ 0 ∧ Checksum.internet [pseudo, d.message sum] = 0 ∧
      packet = header ++ d.message sum := by
  have fits : d.payload.length ≤ maxPayload := by
    by_contra long
    rw [encapsulate_of_long (Nat.not_le.1 long)] at written
    cases written
  have family : d.source.address.isV4 = d.destination.address.isV4 := by
    by_contra mixed
    rw [encapsulate_of_mixed mixed fits] at written
    cases written
  obtain ⟨pseudo, header, sum, carriage, nonzero, valid, packet_eq⟩ :=
    exists_encapsulate_eq family fits
  exact ⟨fits, pseudo, header, sum, carriage, nonzero, valid,
    Except.ok.inj (written.symm.trans packet_eq)⟩

/-- The checksum of a message is not zero, so neither is the sum of its words. -/
theorem wordSum_message_pos {pseudo : Bytes} (even : Even pseudo.length) (nonzero : sum ≠ 0) :
    0 < Checksum.wordSum [pseudo, d.message sum].flatten := by
  have pos : 0 < sum.toNat := Nat.pos_of_ne_zero fun zero =>
    nonzero (UInt16.toNat_inj.1 (zero.trans UInt16.toNat_zero.symm))
  have total := Checksum.wordSum_word (d.even_front even) d.payload sum.toNat_lt
  rw [List.singleton_append] at total
  rw [message, total]
  omega

/-- What is read from a packet in which a word of the ports or of the payload is changed, if the
checksum is verified. -/
theorem decapsulate_after (written : d.encapsulate = .ok packet) (before : c.before = packet)
    (strikes : c.Strikes (messageStart d.source.address)) :
    (c.SwapsZeros → decapsulate c.after true =
      .ok (d.withMessage (c.after.drop (messageStart d.source.address)))) ∧
    (¬ c.SwapsZeros →
      decapsulate c.after true = .error (.malformed (.checksumMismatch "UDP"))) := by
  obtain ⟨fits, pseudo, header, sum, carriage, nonzero, valid, rfl⟩ :=
    exists_carriage_of_encapsulate written
  rw [← carriage.length_header] at strikes ⊢
  obtain ⟨c', before', after', strikes', swaps⟩ := c.exists_behind before strikes
  -- the changed message is that of another datagram, with the checksum of this one
  have length : c'.after.length = (d.message sum).length := before' ▸ c'.length_after
  have long : 8 ≤ c'.before.length := by
    rw [before', length_message]
    exact Nat.le_add_right ..
  have message : (d.withMessage c'.after).message sum = c'.after :=
    message_withMessage length (before' ▸ c'.between_after strikes' long)
  have fits' : (d.withMessage c'.after).payload.length ≤ maxPayload := by
    rw [withMessage, List.length_drop, length, length_message, Nat.add_sub_cancel_left]
    exact fits
  have even : Even (pseudo ++ c'.front).length := by
    obtain ⟨n, place, -⟩ := strikes'
    rw [List.length_append, place, Nat.zero_add]
    exact carriage.even.add (even_two_mul n)
  have notices : Checksum.internet [pseudo, c'.after] = 0 ↔ c.SwapsZeros := by
    have positive : 0 < Checksum.wordSum [pseudo, c'.after].flatten :=
      message ▸ wordSum_message_pos carriage.even nonzero
    rw [← swaps]
    exact Checksum.internet_after_iff even (before'.symm ▸ valid) positive
  have read : decapsulate (header ++ c'.after) true =
      if Checksum.internet [pseudo, c'.after] ≠ 0 then
        .error (.malformed (.checksumMismatch "UDP"))
      else .ok (d.withMessage c'.after) := by
    have parsed := carriage.parsed (length.trans length_message) []
    rw [List.append_nil] at parsed
    have checked := carriage.sum (length.trans length_message)
    rw [← message] at parsed checked
    have decided := @decapsulate_of_parse (d.withMessage c'.after) _ sum _ parsed fits' checked true
    rw [message, bare_withMessage] at decided
    rw [decided]
    simp [nonzero]
  rw [after', List.drop_left, read]
  exact ⟨fun swapped => if_neg (not_not.2 (notices.2 swapped)),
    fun kept => if_pos (mt notices.1 kept)⟩

theorem xor_bit_ne (b : UInt8) {bit : Nat} (h : bit < 8) : b ^^^ UInt8.ofNat (2 ^ bit) ≠ b := by
  have nonzero : ∀ bit < 8, UInt8.ofNat (2 ^ bit) ≠ 0 := by decide
  intro same
  exact nonzero bit h ((UInt8.xor_right_inj b).1 (same.trans UInt8.xor_zero.symm))

/-- **A verified checksum notices corruption within one word.** In the packet that is written for a
datagram, change one word of the ports or of the payload, counting words from the start of the UDP
message and padding an odd byte at the end with zero. Then the packet is rejected for its checksum,
unless the word was zero and became all ones, or the other way round; then the changed datagram is
read. In particular, no packet in which a single bit of these bytes is flipped is accepted. -/
theorem corruption_detected (written : d.encapsulate = .ok packet) :
    (∀ c : WordChange, c.before = packet → c.Strikes (messageStart d.source.address) →
      (c.SwapsZeros → decapsulate c.after true =
        .ok (d.withMessage (c.after.drop (messageStart d.source.address)))) ∧
      (¬ c.SwapsZeros →
        decapsulate c.after true = .error (.malformed (.checksumMismatch "UDP")))) ∧
    ∀ (front back : Bytes) (b : UInt8) (bit : Nat), packet = front ++ b :: back → bit < 8 →
      messageStart d.source.address ≤ front.length →
      ¬ (messageStart d.source.address + 4 ≤ front.length ∧
        front.length < messageStart d.source.address + 8) →
      decapsulate (front ++ (b ^^^ UInt8.ofNat (2 ^ bit)) :: back) true =
        .error (.malformed (.checksumMismatch "UDP")) := by
  refine ⟨fun c => decapsulate_after written, ?_⟩
  intro front back b bit split bound inside outside
  obtain ⟨c, before, after, strikes, kept⟩ :=
    @WordChange.exists_of_byte _ front back b _ (xor_bit_ne b bound) inside outside
  rw [← after]
  exact (decapsulate_after written (before.trans split.symm) strikes).2 kept

/-- A source port of all ones that becomes zero, or another one; and a bit of a last byte that has
no partner. -/
theorem corruption_detected_port :
    let d : Datagram := ⟨.of (.v6 1) 0xffff, .of (.v6 2) 6000, [1, 2, 3]⟩
    let front : Bytes := [0x60, 0, 0, 0, 0, 11, 17, 64] ++ Bytes.ofNat 16 1 ++ Bytes.ofNat 16 2
    let back : Bytes := [0x17, 0x70, 0, 11, 0xe4, 0x63, 1, 2]
    d.encapsulate = .ok (front ++ ([0xff, 0xff] ++ (back ++ [3]))) ∧
    decapsulate (front ++ ([0, 0] ++ (back ++ [3]))) true =
      .ok ⟨.of (.v6 1) 0, .of (.v6 2) 6000, [1, 2, 3]⟩ ∧
    decapsulate (front ++ ([0xff, 0xfe] ++ (back ++ [3]))) true =
      .error (.malformed (.checksumMismatch "UDP")) ∧
    decapsulate ((front ++ [0xff, 0xff] ++ back) ++ [3 ^^^ 128]) true =
      .error (.malformed (.checksumMismatch "UDP")) := by
  intro d front back
  have computed : Datagram.checksum d.source.address d.destination.address (d.message 0) =
      .ok 0xe463 := by
    show Except.ok (Checksum.internet _) = _
    rw [Checksum.internet_eq_complement]
    decide +kernel
  have written : d.encapsulate = .ok (front ++ ([0xff, 0xff] ++ (back ++ [3]))) := by
    rw [encapsulate_eq (by decide), computed]
    decide +kernel
  obtain ⟨words, bits⟩ := corruption_detected written
  have toZeros : decapsulate (front ++ ([0, 0] ++ (back ++ [3]))) true = _ :=
    (words ⟨front, [0xff, 0xff], [0, 0], back ++ [3], .inl rfl, rfl, by decide⟩ rfl
      ⟨0, by decide⟩).1 (by decide)
  have toOther : decapsulate (front ++ ([0xff, 0xfe] ++ (back ++ [3]))) true = _ :=
    (words ⟨front, [0xff, 0xff], [0xff, 0xfe], back ++ [3], .inl rfl, rfl, by decide⟩ rfl
      ⟨0, by decide⟩).2 (by decide)
  have flipped := bits (front ++ [0xff, 0xff] ++ back) [] 3 7 (by simp) (by decide) (by decide)
    (by decide)
  exact ⟨written, toZeros.trans (by decide +kernel), toOther, flipped⟩

end Datagram

end MulticastTunnel
