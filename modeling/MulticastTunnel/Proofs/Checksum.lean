import Mathlib.Algebra.Group.Nat.Even
import MulticastTunnel.Checksum
import MulticastTunnel.Proofs.Bytes.Reader

/-!
# Checksums that seal

The checksum of some byte strings is that of the string they make together, and what it complements
is the sum of the big endian words of that string, its carries folded back in. Folding keeps the
sum modulo 65535, and only a sum of zero folds to zero.

* `Checksum.internet_eq` : the checksum is the complement of the folded sum of words.
* `Checksum.fits32_of_length` : the sum does not get too large for 32 bits.
* `Checksum.internet_sealed` : **a byte string that carries its own checksum has the checksum
  zero**, alone or after byte strings of even length that were summed before it.
-/

namespace MulticastTunnel

namespace Checksum

/-! ### Sums of words -/

/-- The sum of the big endian words, an odd byte at the end being padded with zero. -/
def wordSum : Bytes → Nat
  | [] => 0
  | [high] => high.toNat * 256
  | high :: low :: rest => high.toNat * 256 + low.toNat + wordSum rest

theorem wordSum_append {front : Bytes} (h : Even front.length) (back : Bytes) :
    wordSum (front ++ back) = wordSum front + wordSum back := by
  induction front using wordSum.induct with
  | case1 => simp [wordSum]
  | case2 high => simp at h
  | case3 high low rest ih =>
    have even : Even rest.length := by simpa [Nat.even_add_one] using h
    simp only [List.cons_append, wordSum, ih even]
    omega

theorem wordSum_ofNat {n : Nat} (h : n < 65536) : wordSum (Bytes.ofNat 2 n) = n := by
  simp only [Bytes.ofNat, wordSum, Nat.shiftRight_eq_div_pow, UInt8.toNat_ofNat']
  omega

theorem wordSum_le (bytes : Bytes) : wordSum bytes ≤ 65535 * ((bytes.length + 1) / 2) := by
  induction bytes using wordSum.induct with
  | case1 => simp [wordSum]
  | case2 high =>
    have := high.toNat_lt
    simp only [wordSum, List.length_cons, List.length_nil]
    omega
  | case3 high low rest ih =>
    have := high.toNat_lt
    have := low.toNat_lt
    simp only [wordSum, List.length_cons]
    omega

namespace Accumulator

/-- What is still to be summed, with the half that is waiting in front. -/
def pending (acc : Accumulator) (bytes : Bytes) : Bytes := acc.half.toList ++ bytes

/-- The total after more bytes is the total of the words so far and of those to come. -/
theorem total_feed (acc : Accumulator) (bytes : Bytes) :
    (acc.feed bytes).total = acc.sum + wordSum (acc.pending bytes) := by
  induction bytes generalizing acc with
  | nil =>
    obtain ⟨sum, half⟩ := acc
    cases half <;> simp [feed, total, pending, wordSum]
  | cons b rest ih =>
    obtain ⟨sum, half⟩ := acc
    have step : Accumulator.feed ⟨sum, half⟩ (b :: rest) = (feedByte ⟨sum, half⟩ b).feed rest := rfl
    rw [step, ih]
    cases half <;> simp [feedByte, pending, wordSum, Nat.add_assoc]

theorem total_zero_feed (bytes : Bytes) : (zero.feed bytes).total = wordSum bytes := by
  rw [total_feed]
  simp [zero, pending]

theorem foldl_feed (acc : Accumulator) (parts : List Bytes) :
    parts.foldl feed acc = acc.feed parts.flatten := by
  simp only [feed]
  exact List.foldl_flatten.symm

end Accumulator

/-- At every byte of the way, 32 bits hold what is summed so far. -/
def Fits32 (parts : List Bytes) : Prop :=
  ∀ front, front <+: parts.flatten → (Accumulator.zero.feed front).total < 2 ^ 32

/-- Byte strings that are much longer than any packet can be summed in 32 bits. -/
theorem fits32_of_length {parts : List Bytes} (h : parts.flatten.length ≤ 131072) :
    Fits32 parts := by
  intro front hf
  have length := hf.length_le
  have le := wordSum_le front
  rw [Accumulator.total_zero_feed]
  omega

/-! ### Folding -/

theorem foldCarries_le (sum : Nat) : foldCarries sum ≤ 65535 := by
  induction sum using foldCarries.induct with
  | case1 sum small => rwa [foldCarries, if_pos small]
  | case2 sum large ih => rwa [foldCarries, if_neg large]

theorem foldCarries_mod (sum : Nat) : foldCarries sum % 65535 = sum % 65535 := by
  induction sum using foldCarries.induct with
  | case1 sum small => rw [foldCarries, if_pos small]
  | case2 sum large ih =>
    rw [foldCarries, if_neg large, ih]
    omega

theorem foldCarries_pos {sum : Nat} (h : 0 < sum) : 0 < foldCarries sum := by
  induction sum using foldCarries.induct with
  | case1 sum small => rwa [foldCarries, if_pos small]
  | case2 sum large ih =>
    rw [foldCarries, if_neg large]
    exact ih (by omega)

theorem foldCarries_add_complement (sum : Nat) :
    foldCarries (sum + (65535 - foldCarries sum)) = 65535 := by
  have le := foldCarries_le (sum + (65535 - foldCarries sum))
  have mod := foldCarries_mod (sum + (65535 - foldCarries sum))
  have le' := foldCarries_le sum
  have mod' := foldCarries_mod sum
  have pos : 0 < foldCarries (sum + (65535 - foldCarries sum)) := by
    refine foldCarries_pos ?_
    rcases Nat.eq_zero_or_pos sum with rfl | pos
    · simp [foldCarries]
    · omega
  omega

/-! ### Sealing -/

/-- The checksum is the complement of the folded sum of the words of all byte strings together. -/
theorem internet_eq (parts : List Bytes) :
    (internet parts).toNat = 65535 - foldCarries (wordSum parts.flatten) := by
  have le := foldCarries_le (wordSum parts.flatten)
  rw [internet, Accumulator.foldl_feed, Accumulator.total_zero_feed, UInt16.toNat_not,
    UInt16.toNat_ofNat', Nat.mod_eq_of_lt (by omega : _ < 2 ^ 16)]
  rfl

theorem internet_eq_zero_iff {parts : List Bytes} : internet parts = 0 ↔
    0 < wordSum parts.flatten ∧ wordSum parts.flatten % 65535 = 0 := by
  have le := foldCarries_le (wordSum parts.flatten)
  have mod := foldCarries_mod (wordSum parts.flatten)
  rw [← UInt16.toNat_inj, internet_eq]
  show 65535 - _ = 0 ↔ _
  rcases Nat.eq_zero_or_pos (wordSum parts.flatten) with none | some
  · simp [none, foldCarries]
  · have := foldCarries_pos some
    omega

theorem wordSum_word {parts : List Bytes} {front : Bytes}
    (even : Even (parts.flatten ++ front).length) (back : Bytes) {n : Nat} (small : n < 65536) :
    wordSum (parts ++ [front ++ Bytes.ofNat 2 n ++ back]).flatten =
      wordSum (parts.flatten ++ front) + wordSum back + n := by
  have whole : (parts ++ [front ++ Bytes.ofNat 2 n ++ back]).flatten =
      (parts.flatten ++ front) ++ (Bytes.ofNat 2 n ++ back) := by simp
  have word : wordSum (Bytes.ofNat 2 n ++ back) = n + wordSum back := by
    rw [wordSum_append (by rw [Bytes.length_ofNat]; decide), wordSum_ofNat small]
  rw [whole, wordSum_append even, word]
  omega

/-- **A byte string that carries its own checksum has the checksum zero.** -/
theorem internet_sealed (parts : List Bytes) {front back : Bytes}
    (even : Even (parts.flatten ++ front).length) :
    internet (parts ++ [front ++
      Bytes.ofNat 2 (internet (parts ++ [front ++ [0, 0] ++ back])).toNat ++ back]) = 0 := by
  have unsealed : wordSum (parts ++ [front ++ [0, 0] ++ back]).flatten =
      wordSum (parts.flatten ++ front) + wordSum back :=
    wordSum_word even back (by omega : 0 < 65536)
  rw [← UInt16.toNat_inj, internet_eq, wordSum_word even back (UInt16.toNat_lt _), internet_eq,
    unsealed, foldCarries_add_complement]
  rfl

theorem internet_sealed_ones (parts : List Bytes) {front back : Bytes}
    (even : Even (parts.flatten ++ front).length)
    (zero : internet (parts ++ [front ++ [0, 0] ++ back]) = 0) :
    internet (parts ++ [front ++ Bytes.ofNat 2 65535 ++ back]) = 0 := by
  have unsealed : wordSum (parts ++ [front ++ [0, 0] ++ back]).flatten =
      wordSum (parts.flatten ++ front) + wordSum back :=
    wordSum_word even back (by omega : 0 < 65536)
  rw [internet_eq_zero_iff, unsealed] at zero
  rw [internet_eq_zero_iff, wordSum_word even back (by omega)]
  omega

end Checksum

end MulticastTunnel
