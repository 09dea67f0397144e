import MulticastTunnel.Proofs.Checksum

/-!
# Checksums in a register

A machine sums the words of a checksum in a register of 32 bits, and then adds the upper half of the
register to the lower half until the upper half is empty. Here an addition that does not fit the
register has no result, and neither has folding that takes more rounds than it is given. For byte
strings of at most 131,072 bytes in all there always is a result, after two rounds, and it is the
checksum; and that is the complement of the sum in which every addition of two words carries around
to the low end at once.

* `Checksum.Register`, `Checksum.internet32?` : the checksum as a machine computes it.
* `Checksum.internet32?_eq` : the register never overflows, and two rounds are enough.
* `Checksum.internet_eq_complement` : the checksum by end-around carries.
* `Checksum.internet_exact` : **what the checksum is, and that it seals**.
-/

namespace MulticastTunnel

namespace Checksum

/-! ### The register -/

/-- The sum of two numbers, if 32 bits hold it. -/
def add32? (a b : UInt32) : Option UInt32 :=
  if a.toNat + b.toNat < 2 ^ 32 then some (a + b) else none

/-- Two bytes as a big endian word. -/
def word (high low : UInt8) : UInt16 := UInt16.ofNat (high.toNat * 256 + low.toNat)

/-- The words summed so far in 32 bits, and the first half of a word whose second half is still to
come. -/
structure Register where
  sum : UInt32
  half : Option UInt8

namespace Register

/-- Nothing summed yet. -/
def zero : Register := ⟨0, none⟩

/-- Adds one byte. -/
def feedByte? (r : Register) (b : UInt8) : Option Register :=
  match r.half with
  | some high => do return ⟨← add32? r.sum (word high b).toUInt32, none⟩
  | none => some ⟨r.sum, some b⟩

/-- Adds a byte string. -/
def feed? (r : Register) (bytes : Bytes) : Option Register := bytes.foldlM feedByte? r

/-- The sum, with a missing second half read as zero. -/
def total? (r : Register) : Option UInt32 :=
  match r.half with
  | some high => add32? r.sum (word high 0).toUInt32
  | none => some r.sum

/-- What the register stands for. -/
def accumulator (r : Register) : Accumulator := ⟨r.sum.toNat, r.half⟩

end Register

/-- Adds the upper half of a register to the lower half until the upper half is empty, which has to
happen within a number of rounds. -/
def foldWithin? : (rounds : Nat) → UInt32 → Option UInt32
  | 0, sum => if sum ≤ 0xffff then some sum else none
  | rounds + 1, sum =>
    if sum ≤ 0xffff then some sum
    else do foldWithin? rounds (← add32? (sum &&& 0xffff) (sum >>> 16))

/-- The checksum over several byte strings, if the register holds every sum on the way, and folding
ends within a number of rounds. -/
def internet32? (rounds : Nat) (parts : List Bytes) : Option UInt16 := do
  let summed ← parts.foldlM Register.feed? .zero
  let folded ← foldWithin? rounds (← summed.total?)
  return ~~~ folded.toUInt16

/-! ### No overflow -/

theorem exists_add32 {a b : UInt32} (h : a.toNat + b.toNat < 2 ^ 32) :
    ∃ c, add32? a b = some c ∧ c.toNat = a.toNat + b.toNat := by
  refine ⟨a + b, if_pos h, ?_⟩
  rw [UInt32.toNat_add, Nat.mod_eq_of_lt h]

theorem toNat_word (high low : UInt8) : (word high low).toNat = high.toNat * 256 + low.toNat := by
  have := high.toNat_lt
  have := low.toNat_lt
  rw [word, UInt16.toNat_ofNat', Nat.mod_eq_of_lt (by omega)]

theorem toNat_word_zero (high : UInt8) : (word high 0).toNat = high.toNat * 256 := by
  rw [toNat_word, UInt8.toNat_zero, Nat.add_zero]

theorem Accumulator.sum_le_total_feed (acc : Accumulator) (bytes : Bytes) :
    acc.sum ≤ (acc.feed bytes).total := by
  rw [total_feed]
  exact Nat.le_add_right ..

namespace Register

variable {r : Register} {b : UInt8} {bytes : Bytes} {parts : List Bytes}

theorem exists_feedByte (h : (r.accumulator.feedByte b).sum < 2 ^ 32) :
    ∃ r', r.feedByte? b = some r' ∧ r'.accumulator = r.accumulator.feedByte b := by
  obtain ⟨sum, half⟩ := r
  cases half with
  | none => exact ⟨⟨sum, some b⟩, rfl, rfl⟩
  | some high =>
    have fits : sum.toNat + (word high b).toUInt32.toNat < 2 ^ 32 := by
      rwa [UInt16.toNat_toUInt32, toNat_word]
    obtain ⟨sum', added, value⟩ := exists_add32 fits
    rw [UInt16.toNat_toUInt32, toNat_word] at value
    refine ⟨⟨sum', none⟩, ?_, ?_⟩
    · simp only [feedByte?, added]
      rfl
    · rw [accumulator, value]
      rfl

/-- If the total of all bytes fits the register, then so does every sum on the way. -/
theorem exists_feed (h : (r.accumulator.feed bytes).total < 2 ^ 32) :
    ∃ r', r.feed? bytes = some r' ∧ r'.accumulator = r.accumulator.feed bytes := by
  induction bytes generalizing r with
  | nil => exact ⟨r, rfl, rfl⟩
  | cons b rest ih =>
    have le := (r.accumulator.feedByte b).sum_le_total_feed rest
    obtain ⟨r₁, fed, value⟩ := exists_feedByte (Nat.lt_of_le_of_lt le h)
    obtain ⟨r', fed', value'⟩ := @ih r₁ (by rw [value]; exact h)
    refine ⟨r', ?_, ?_⟩
    · rw [feed?, List.foldlM_cons, fed]
      exact fed'
    · rw [value', value]
      rfl

theorem foldlM_feed (r : Register) (parts : List Bytes) :
    parts.foldlM feed? r = r.feed? parts.flatten := by
  induction parts generalizing r with
  | nil => rfl
  | cons bytes parts ih =>
    rw [List.foldlM_cons, List.flatten_cons, feed?, feed?, List.foldlM_append]
    exact bind_congr fun r' => ih r'

theorem exists_total (h : r.accumulator.total < 2 ^ 32) :
    ∃ sum, r.total? = some sum ∧ sum.toNat = r.accumulator.total := by
  obtain ⟨sum, half⟩ := r
  cases half with
  | none => exact ⟨sum, rfl, rfl⟩
  | some high =>
    have fits : sum.toNat + (word high 0).toUInt32.toNat < 2 ^ 32 := by
      rwa [UInt16.toNat_toUInt32, toNat_word_zero]
    obtain ⟨sum', added, value⟩ := exists_add32 fits
    rw [UInt16.toNat_toUInt32, toNat_word_zero] at value
    exact ⟨sum', added, value⟩

end Register

/-! ### Folding ends -/

theorem foldWithin?_of_le {rounds : Nat} {sum : UInt32} (h : sum.toNat ≤ 65535) :
    foldWithin? rounds sum = some sum := by
  have small : sum ≤ 0xffff := UInt32.le_iff_toNat_le.2 h
  cases rounds with
  | zero => exact if_pos small
  | succ rounds => exact if_pos small

theorem exists_foldWithin_succ {rounds : Nat} {sum : UInt32} (h : 65535 < sum.toNat) :
    ∃ next, foldWithin? (rounds + 1) sum = foldWithin? rounds next ∧
      next.toNat = sum.toNat % 65536 + sum.toNat / 65536 := by
  have low : (sum &&& 0xffff).toNat = sum.toNat % 65536 := by
    rw [UInt32.toNat_and]
    exact Nat.and_two_pow_sub_one_eq_mod _ 16
  have high : (sum >>> 16).toNat = sum.toNat / 65536 := by
    rw [UInt32.toNat_shiftRight]
    exact Nat.shiftRight_eq_div_pow _ 16
  have lt := sum.toNat_lt
  have fits : (sum &&& 0xffff).toNat + (sum >>> 16).toNat < 2 ^ 32 := by omega
  obtain ⟨next, added, value⟩ := exists_add32 fits
  rw [low, high] at value
  refine ⟨next, ?_, value⟩
  have large : ¬ sum ≤ 0xffff := fun small => Nat.not_le.2 h (UInt32.le_iff_toNat_le.1 small)
  rw [foldWithin?, if_neg large, added]
  rfl

/-- Whatever the register holds, two rounds are enough: the first one leaves a carry of at most
one. -/
theorem exists_foldWithin_two (sum : UInt32) :
    ∃ folded, foldWithin? 2 sum = some folded ∧ folded.toNat = foldCarries sum.toNat := by
  have lt := sum.toNat_lt
  rcases Nat.lt_or_ge 65535 sum.toNat with large | small
  · obtain ⟨next, first, value⟩ := @exists_foldWithin_succ 1 sum large
    rw [first, foldCarries, if_neg (Nat.not_le.2 large), ← value]
    rcases Nat.lt_or_ge 65535 next.toNat with large' | small'
    · obtain ⟨last, second, value'⟩ := @exists_foldWithin_succ 0 next large'
      have done : last.toNat ≤ 65535 := by omega
      rw [second, foldWithin?_of_le done, foldCarries, if_neg (Nat.not_le.2 large'), ← value',
        foldCarries, if_pos done]
      exact ⟨last, rfl, rfl⟩
    · rw [foldWithin?_of_le small', foldCarries, if_pos small']
      exact ⟨next, rfl, rfl⟩
  · rw [foldWithin?_of_le small, foldCarries, if_pos small]
    exact ⟨sum, rfl, rfl⟩

/-- If 32 bits hold the sums, the machine computes the checksum. -/
theorem internet32?_eq {parts : List Bytes} (h : Fits32 parts) :
    internet32? 2 parts = some (internet parts) := by
  have fits : (Accumulator.zero.feed parts.flatten).total < 2 ^ 32 := h _ (List.prefix_refl _)
  obtain ⟨r, fed, summed⟩ := @Register.exists_feed .zero parts.flatten fits
  have start : Register.zero.accumulator = .zero := rfl
  rw [start] at summed
  obtain ⟨sum, total, value⟩ := @Register.exists_total r (by rwa [summed])
  obtain ⟨folded, ended, value'⟩ := exists_foldWithin_two sum
  rw [value, summed, ← Accumulator.foldl_feed] at value'
  rw [internet32?, Register.foldlM_feed, fed, internet, ← value']
  simp only [Option.bind_eq_bind, Option.bind_some, total, ended]
  rfl

/-! ### End-around carries -/

/-- The sum of two words, with the carry beyond 16 bits added back in at the low end. -/
def addEndAround (a b : UInt16) : UInt16 :=
  if a.toNat + b.toNat < 2 ^ 16 then a + b else a + b + 1

/-- The big endian words of a byte string, an odd byte at the end being padded with zero. -/
def words : Bytes → List UInt16
  | [] => []
  | [high] => [word high 0]
  | high :: low :: rest => word high low :: words rest

theorem foldCarries_congr {a b : Nat} (mod : a % 65535 = b % 65535) (zero : a = 0 ↔ b = 0) :
    foldCarries a = foldCarries b := by
  have le := foldCarries_le a
  have le' := foldCarries_le b
  have mod₁ := foldCarries_mod a
  have mod₂ := foldCarries_mod b
  rcases Nat.eq_zero_or_pos a with none | some
  · rw [none, zero.1 none]
  · have pos := foldCarries_pos some
    have pos' := foldCarries_pos (Nat.pos_of_ne_zero (mt zero.2 (Nat.pos_iff_ne_zero.1 some)))
    omega

theorem foldCarries_foldCarries_add (a b : Nat) :
    foldCarries (foldCarries a + b) = foldCarries (a + b) := by
  have mod := foldCarries_mod a
  refine foldCarries_congr (by omega) ?_
  rcases Nat.eq_zero_or_pos a with rfl | some
  · simp [foldCarries]
  · have pos := foldCarries_pos some
    omega

theorem toNat_addEndAround (a b : UInt16) :
    (addEndAround a b).toNat = foldCarries (a.toNat + b.toNat) := by
  have lt := a.toNat_lt
  have lt' := b.toNat_lt
  unfold addEndAround
  split
  · next fits =>
    rw [UInt16.toNat_add, Nat.mod_eq_of_lt fits, foldCarries, if_pos (by omega)]
  · next carries =>
    rw [UInt16.toNat_add, UInt16.toNat_add, foldCarries, if_neg (by omega), foldCarries,
      if_pos (by omega), UInt16.toNat_one]
    omega

theorem toNat_foldl_addEndAround (a : UInt16) (bytes : Bytes) :
    ((words bytes).foldl addEndAround a).toNat = foldCarries (a.toNat + wordSum bytes) := by
  induction bytes using words.induct generalizing a with
  | case1 =>
    have lt := a.toNat_lt
    rw [wordSum, Nat.add_zero, foldCarries, if_pos (by omega)]
    rfl
  | case2 high =>
    rw [words, List.foldl_cons, List.foldl_nil, toNat_addEndAround, toNat_word_zero, wordSum]
  | case3 high low rest ih =>
    rw [words, List.foldl_cons, ih, toNat_addEndAround, foldCarries_foldCarries_add, toNat_word,
      wordSum, Nat.add_assoc]

theorem internet_eq_complement (parts : List Bytes) :
    internet parts = ~~~ (words parts.flatten).foldl addEndAround 0 := by
  have le := foldCarries_le (wordSum parts.flatten)
  rw [← UInt16.toNat_inj, internet_eq, UInt16.toNat_not, toNat_foldl_addEndAround,
    UInt16.toNat_zero, Nat.zero_add]
  rfl

/-- A checksum that is stored over two zero bytes where words begin seals the byte string. -/
theorem internet_patchWord {parts : List Bytes} {bytes : Bytes} {offset : Nat}
    (before : Even parts.flatten.length) (even : Even offset)
    (zeros : bytes.between offset (offset + 2) = [0, 0]) :
    internet (parts ++ [bytes.patchWord offset (internet (parts ++ [bytes]))]) = 0 := by
  rw [Bytes.between, Nat.add_sub_cancel_left] at zeros
  have room : offset + 2 ≤ bytes.length := by
    have two := congrArg List.length zeros
    simp only [List.length_take, List.length_drop, List.length_cons, List.length_nil] at two
    omega
  have shape : bytes = bytes.take offset ++ [0, 0] ++ bytes.drop (offset + 2) := by
    rw [← zeros, List.append_assoc, ← List.drop_drop, List.take_append_drop,
      List.take_append_drop]
  have even' : Even (parts.flatten ++ bytes.take offset).length := by
    rw [List.length_append, List.length_take_of_le (by omega)]
    exact before.add even
  have sealed := @internet_sealed parts (bytes.take offset) (bytes.drop (offset + 2)) even'
  rwa [← shape] at sealed

/-- **What the checksum is, and that it seals.** Over byte strings of at most 131,072 bytes in all,
a register of 32 bits holds every sum on the way, and its carries are folded in after two rounds.
The result is that of all bytes in one string, however they were cut, and the complement of the sum
of the big endian words with end-around carries. If it is stored over two zero bytes where words
begin, then the checksum of the whole is zero, alone or behind byte strings of even length that were
included. -/
theorem internet_exact :
    (∀ parts : List Bytes, parts.flatten.length ≤ 131072 →
      internet32? 2 parts = some (internet parts) ∧
      internet parts = internet [parts.flatten] ∧
      internet parts = ~~~ (words parts.flatten).foldl addEndAround 0) ∧
    ∀ (parts : List Bytes) (bytes : Bytes) (offset : Nat),
      Even parts.flatten.length → Even offset → bytes.between offset (offset + 2) = [0, 0] →
      internet (parts ++ [bytes.patchWord offset (internet (parts ++ [bytes]))]) = 0 := by
  refine ⟨fun parts short => ⟨internet32?_eq (fits32_of_length short), ?_,
    internet_eq_complement parts⟩, fun _ _ _ => internet_patchWord⟩
  rw [internet_eq_complement, internet_eq_complement, List.flatten_singleton]

/-- Bytes cut at odd places, whose carries take two rounds; and a byte string of odd length that is
sealed behind two byte strings that are of even length only together. -/
theorem internet_exact_oddCuts :
    let parts : List Bytes := [[0xff], [0xff, 0xff, 0xff, 0x00], [], [0x01]]
    let front : List Bytes := [[0x78], [0x9a, 0xbc, 0xde]]
    let message : Bytes := [0x12, 0x34, 0, 0, 0x56]
    parts.flatten.length ≤ 131072 ∧ internet32? 2 parts = some 0xfffe ∧
    internet parts = internet [parts.flatten] ∧
    Even front.flatten.length ∧ Even 2 ∧ message.between 2 4 = [0, 0] ∧
    internet (front ++ [message.patchWord 2 (internet (front ++ [message]))]) = 0 := by
  intro parts front message
  have short : parts.flatten.length ≤ 131072 := by decide
  have even : Even front.flatten.length := by decide
  have zeros : message.between 2 4 = [0, 0] := by decide
  obtain ⟨computed, together, value⟩ := internet_exact.1 parts short
  have sum : ~~~ (words parts.flatten).foldl addEndAround 0 = 0xfffe := by decide
  exact ⟨short, by rw [computed, value, sum], together, even, by decide, zeros,
    internet_exact.2 front message 2 even (by decide) zeros⟩

end Checksum

end MulticastTunnel
