import Mathlib.Order.Bounds.Basic
import Mathlib.Order.GaloisConnection.Defs
import Mathlib.Tactic.Ring
import MulticastTunnel.TimeCode

/-!
# Time codes round down

The values that have a code are the numbers below `2 ^ (m + 3)` themselves, and beyond them the
products of a completed mantissa, a number of `m + 1` bits, and a power of two, where `m` is the
number of bits of the mantissa. `TimeCode.encode` keeps the leading `m + 1` bits of a value, which
is the best that can be done from below. The order of the codes is that of their values, across the
boundaries between exponents, so no two codes stand for the same value.

* `TimeCode.decode_float`, `TimeCode.code_cases` : the values of codes.
* `TimeCode.search_cases` : the code that is found for a value.
* `TimeCode.isGreatest_decode_encode` : **the code of a value stands for the largest value with a
  code that is not above it**.
* `TimeCode.isGreatest_bits`, `TimeCode.isGreatest_range` : the same of codes of any type, and of
  values that count a unit.
* `TimeCode.strictMonoOn_decode` : the order of codes and values.
* `TimeCode.codes_round_down` : **writing a number as a code rounds down**, is monotone, undoes
  reading, and saturates.
-/

namespace MulticastTunnel

namespace TimeCode

variable {m code value : Nat}

/-! ### The values of codes -/

/-- Codes without the leading bit stand for themselves. -/
theorem decode_small (h : code < 2 ^ (m + 3)) : decode m code = code := by
  rw [decode, Nat.shiftLeft_eq, Nat.one_mul, if_pos h]

/-- Codes with the leading bit stand for a completed mantissa, shifted left. -/
theorem decode_float {e k : Nat} (he : e < 8) (hk : k < 2 ^ m) :
    decode m (2 ^ (m + 3) + e * 2 ^ m + k) = (2 ^ m + k) * 2 ^ (e + 3) := by
  have code : 2 ^ (m + 3) + e * 2 ^ m + k = k + 2 ^ m * (8 + e) := by ring
  have exponent : (2 ^ (m + 3) + e * 2 ^ m + k) / 2 ^ m % 8 = e := by
    rw [code, Nat.add_mul_div_left _ _ (Nat.two_pow_pos m), Nat.div_eq_of_lt hk]
    omega
  have mantissa : (2 ^ (m + 3) + e * 2 ^ m + k) % 2 ^ m = k := by
    rw [code, Nat.add_mul_mod_self_left, Nat.mod_eq_of_lt hk]
  have large : ¬ 2 ^ (m + 3) + e * 2 ^ m + k < 2 ^ (m + 3) := by omega
  simp only [decode, Nat.shiftLeft_eq, Nat.shiftRight_eq_div_pow, Nat.one_mul, exponent, mantissa,
    if_neg large, Nat.add_comm k]

theorem code_cases (h : code < 2 ^ (m + 4)) : code < 2 ^ (m + 3) ∨
    ∃ e k, e < 8 ∧ k < 2 ^ m ∧ code = 2 ^ (m + 3) + e * 2 ^ m + k := by
  rcases Nat.lt_or_ge code (2 ^ (m + 3)) with small | large
  · exact .inl small
  · have pos := Nat.two_pow_pos m
    have low : 8 ≤ code / 2 ^ m := (Nat.le_div_iff_mul_le pos).2 (by rw [pow_add] at large; omega)
    have high : code / 2 ^ m < 16 := (Nat.div_lt_iff_lt_mul pos).2 (by rw [pow_add] at h; omega)
    refine .inr ⟨code / 2 ^ m - 8, code % 2 ^ m, by omega, Nat.mod_lt _ pos, ?_⟩
    have whole := Nat.div_add_mod' code (2 ^ m)
    rw [Nat.sub_mul, pow_add]
    have := Nat.mul_le_mul_right (2 ^ m) low
    omega

theorem decode_le (h : code < 2 ^ (m + 4)) : decode m code ≤ (2 ^ (m + 1) - 1) * 2 ^ 10 := by
  have pos := Nat.two_pow_pos m
  rcases code_cases h with small | ⟨e, k, he, hk, rfl⟩
  · rw [decode_small small]
    rw [pow_add] at small ⊢
    omega
  · have mantissa : 2 ^ m + k ≤ 2 ^ (m + 1) - 1 := by
      rw [pow_succ]
      omega
    rw [decode_float he hk]
    exact Nat.mul_le_mul mantissa (Nat.pow_le_pow_right (by decide) (by omega))

theorem decode_last (m : Nat) : decode m (2 ^ (m + 4) - 1) = (2 ^ (m + 1) - 1) * 2 ^ 10 := by
  have pos := Nat.two_pow_pos m
  have last : 2 ^ (m + 4) - 1 = 2 ^ (m + 3) + 7 * 2 ^ m + (2 ^ m - 1) := by
    rw [pow_add, pow_add]
    omega
  have mantissa : 2 ^ m + (2 ^ m - 1) = 2 ^ (m + 1) - 1 := by
    rw [pow_succ]
    omega
  rw [last, decode_float (by decide) (by omega), mantissa]

/-! ### The code of a value -/

/-- The code that is found has the leading bits of the value for a mantissa. If there is none, the
value is too large for any code. -/
theorem search_cases {tries exponent : Nat} (all : exponent + tries = 8)
    (leading : 2 ^ m ≤ value / 2 ^ (exponent + 3)) :
    (∃ e < 8, 2 ^ m ≤ value / 2 ^ (e + 3) ∧ value / 2 ^ (e + 3) < 2 ^ (m + 1) ∧
      search m value tries exponent =
        2 ^ (m + 3) + e * 2 ^ m + (value / 2 ^ (e + 3) - 2 ^ m)) ∨
    (2 ^ m ≤ value / 2 ^ 11 ∧ search m value tries exponent = 2 ^ (m + 4) - 1) := by
  induction tries generalizing exponent with
  | zero =>
    obtain rfl : exponent = 8 := by omega
    exact .inr ⟨leading, by rw [search, Nat.shiftLeft_eq, Nat.one_mul]⟩
  | succ tries ih =>
    simp only [search, Nat.shiftRight_eq_div_pow, Nat.shiftLeft_eq, Nat.one_mul]
    split
    · next fits =>
      have bits : value / 2 ^ (exponent + 3) % 2 ^ m = value / 2 ^ (exponent + 3) - 2 ^ m := by
        rw [Nat.mod_eq_sub_mod leading, Nat.mod_eq_of_lt (by rw [pow_succ 2 m] at fits; omega)]
      exact .inl ⟨exponent, by omega, leading, fits, by rw [bits]⟩
    · next long =>
      have half : value / 2 ^ (exponent + 1 + 3) = value / 2 ^ (exponent + 3) / 2 := by
        rw [Nat.div_div_eq_div_mul, ← pow_succ, Nat.add_right_comm]
      refine ih (by omega) ?_
      rw [pow_succ 2 m] at long
      omega

/-- A value with a code that is not above the given one is not above its leading bits either. -/
theorem decode_le_leading {e : Nat} (he : e < 8) (hcode : code < 2 ^ (m + 4))
    (leading : 2 ^ m ≤ value / 2 ^ (e + 3)) (below : decode m code ≤ value) :
    decode m code ≤ value / 2 ^ (e + 3) * 2 ^ (e + 3) := by
  rcases code_cases hcode with small | ⟨e', k, he', hk, rfl⟩
  · rw [decode_small small]
    calc code ≤ 2 ^ m * 2 ^ 3 := by rw [← pow_add]; exact Nat.le_of_lt small
      _ ≤ value / 2 ^ (e + 3) * 2 ^ (e + 3) :=
        Nat.mul_le_mul leading (Nat.pow_le_pow_right (by decide) (by omega))
  · rw [decode_float he' hk] at below ⊢
    rcases Nat.lt_or_ge e' e with less | more
    · calc (2 ^ m + k) * 2 ^ (e' + 3)
          ≤ (2 ^ m * 2) * 2 ^ (e' + 3) := Nat.mul_le_mul_right _ (by omega)
        _ = 2 ^ m * 2 ^ (e' + 1 + 3) := by ring
        _ ≤ value / 2 ^ (e + 3) * 2 ^ (e + 3) :=
          Nat.mul_le_mul leading (Nat.pow_le_pow_right (by decide) (by omega))
    · -- a value with a larger exponent is a multiple of the last place, too
      obtain ⟨d, rfl⟩ := Nat.exists_eq_add_of_le more
      have multiple : (2 ^ m + k) * 2 ^ (e + d + 3) = (2 ^ m + k) * 2 ^ d * 2 ^ (e + 3) := by ring
      rw [multiple] at below ⊢
      exact Nat.mul_le_mul_right _ ((Nat.le_div_iff_mul_le (Nat.two_pow_pos _)).2 below)

/-- **The code of a value stands for the largest value with a code that is not above it.** -/
theorem isGreatest_decode_encode (m value : Nat) : encode m value < 2 ^ (m + 4) ∧
    IsGreatest {x | (∃ code < 2 ^ (m + 4), decode m code = x) ∧ x ≤ value}
      (decode m (encode m value)) := by
  have pos := Nat.two_pow_pos m
  have eight : 2 ^ (m + 3) = 2 ^ m * 8 := by ring
  have sixteen : 2 ^ (m + 4) = 2 ^ m * 16 := by ring
  rw [encode, Nat.shiftLeft_eq, Nat.one_mul]
  split
  · next small =>
    rw [decode_small small]
    exact ⟨by omega, ⟨⟨value, by omega, decode_small small⟩, le_rfl⟩, fun x hx => hx.2⟩
  · next large =>
    have leading : 2 ^ m ≤ value / 2 ^ 3 := by
      rw [Nat.le_div_iff_mul_le (by decide)]
      omega
    rcases search_cases (by decide : 0 + 8 = 8) leading with
      ⟨e, he, low, high, found⟩ | ⟨beyond, found⟩
    · rw [pow_succ 2 m] at high
      have decoded := decode_float (m := m) he (k := value / 2 ^ (e + 3) - 2 ^ m) (by omega)
      rw [Nat.add_sub_cancel' low] at decoded
      have code : 2 ^ (m + 3) + e * 2 ^ m + (value / 2 ^ (e + 3) - 2 ^ m) < 2 ^ (m + 4) := by
        have := Nat.mul_le_mul_right (2 ^ m) (by omega : e ≤ 7)
        omega
      rw [found, decoded]
      refine ⟨code, ⟨⟨_, code, decoded⟩, Nat.div_mul_le_self ..⟩, ?_⟩
      rintro x ⟨⟨c, hc, rfl⟩, below⟩
      exact decode_le_leading he hc low below
    · have code : 2 ^ (m + 4) - 1 < 2 ^ (m + 4) := by omega
      have below : (2 ^ (m + 1) - 1) * 2 ^ 10 ≤ value := by
        calc (2 ^ (m + 1) - 1) * 2 ^ 10 ≤ 2 ^ (m + 1) * 2 ^ 10 := Nat.mul_le_mul_right _ (by omega)
          _ = 2 ^ m * 2 ^ 11 := by ring
          _ ≤ value := (Nat.le_div_iff_mul_le (Nat.two_pow_pos 11)).1 beyond
      rw [found, decode_last]
      refine ⟨code, ⟨⟨_, code, decode_last m⟩, below⟩, ?_⟩
      rintro x ⟨⟨c, hc, rfl⟩, -⟩
      exact decode_le hc

/-! ### One byte and two byte codes -/

theorem isGreatest_bits {C : Type} {bits : C → Nat} {code : Nat → C}
    (bounded : ∀ c, bits c < 2 ^ (m + 4))
    (written : ∀ n, encode m n < 2 ^ (m + 4) → bits (code n) = encode m n) (value : Nat) :
    IsGreatest {x ∈ Set.range fun c => decode m (bits c) | x ≤ value}
      (decode m (bits (code value))) := by
  obtain ⟨small, ⟨-, below⟩, greatest⟩ := isGreatest_decode_encode m value
  rw [← written value small] at below greatest
  refine ⟨⟨⟨_, rfl⟩, below⟩, ?_⟩
  rintro _ ⟨⟨c, rfl⟩, hc⟩
  exact greatest ⟨⟨bits c, bounded c, rfl⟩, hc⟩

theorem toNat_encode8 (value : Nat) (small : encode 4 value < 2 ^ 8) :
    (encode8 value).toNat = encode 4 value := by
  rw [encode8, UInt8.toNat_ofNat', Nat.mod_eq_of_lt small]

theorem toNat_encode16 (value : Nat) (small : encode 12 value < 2 ^ 16) :
    (encode16 value).toNat = encode 12 value := by
  rw [encode16, UInt16.toNat_ofNat', Nat.mod_eq_of_lt small]

theorem isGreatest_decode8 (value : Nat) :
    IsGreatest {x ∈ Set.range decode8 | x ≤ value} (decode8 (encode8 value)) :=
  isGreatest_bits UInt8.toNat_lt toNat_encode8 value

theorem isGreatest_decode16 (value : Nat) :
    IsGreatest {x ∈ Set.range decode16 | x ≤ value} (decode16 (encode16 value)) :=
  isGreatest_bits UInt16.toNat_lt toNat_encode16 value

theorem decode8_lt (code : UInt8) : decode8 code < 2 ^ 32 :=
  Nat.lt_of_le_of_lt (decode_le code.toNat_lt) (by decide)

theorem decode16_lt (code : UInt16) : decode16 code < 2 ^ 32 :=
  Nat.lt_of_le_of_lt (decode_le code.toNat_lt) (by decide)

/-- Values that count a unit: what is written of a quantity is the code of the number of whole units
in it, and what is read is the largest quantity with a code that is not above it. -/
theorem isGreatest_range {C : Type} {value : C → Nat} {encode : Nat → C} {units count : Nat → Nat}
    (gc : GaloisConnection units count)
    (rounds : ∀ n, IsGreatest {x ∈ Set.range value | x ≤ n} (value (encode n))) (quantity : Nat) :
    IsGreatest {x ∈ Set.range fun c => units (value c) | x ≤ quantity}
      (units (value (encode (count quantity)))) := by
  obtain ⟨⟨-, below⟩, greatest⟩ := rounds (count quantity)
  refine ⟨⟨⟨_, rfl⟩, gc.l_le below⟩, ?_⟩
  rintro _ ⟨⟨c, rfl⟩, hc⟩
  exact gc.monotone_l (greatest ⟨⟨c, rfl⟩, gc.le_u hc⟩)

/-! ### The order of codes -/

theorem strictMonoOn_decode (m : Nat) : StrictMonoOn (decode m) (Set.Iio (2 ^ (m + 4))) := by
  intro code hcode code' hcode' less
  have pos := Nat.two_pow_pos m
  rcases code_cases hcode' with small' | ⟨e', k', he', hk', rfl⟩
  · rwa [decode_small small', decode_small (less.trans small')]
  · rw [decode_float he' hk']
    rcases code_cases hcode with small | ⟨e, k, he, hk, rfl⟩
    · rw [decode_small small]
      calc code < 2 ^ m * 2 ^ 3 := by rwa [← pow_add]
        _ ≤ (2 ^ m + k') * 2 ^ (e' + 3) :=
          Nat.mul_le_mul (by omega) (Nat.pow_le_pow_right (by decide) (by omega))
    · rw [decode_float he hk]
      rcases Nat.lt_trichotomy e e' with lower | rfl | higher
      · -- the largest mantissa of an exponent is below the smallest one of the next
        calc (2 ^ m + k) * 2 ^ (e + 3)
            < (2 ^ m * 2) * 2 ^ (e + 3) :=
              Nat.mul_lt_mul_of_pos_right (by omega) (Nat.two_pow_pos _)
          _ = 2 ^ m * 2 ^ (e + 1 + 3) := by ring
          _ ≤ (2 ^ m + k') * 2 ^ (e' + 3) :=
            Nat.mul_le_mul (by omega) (Nat.pow_le_pow_right (by decide) (by omega))
      · exact Nat.mul_lt_mul_of_pos_right (by omega) (Nat.two_pow_pos _)
      · have exponents := Nat.mul_le_mul_right (2 ^ m) higher
        rw [Nat.succ_mul] at exponents
        omega

/-- Writing numbers as codes rounds down. Here `value` is what a code stands for, `code` is what is
written for a number, and `last` is the code of the largest value. -/
structure RoundsDown {C : Type} [LE C] (value : C → Nat) (code : Nat → C) (last : C) : Prop where
  /-- What is written for a number does not stand for more. -/
  le (n : Nat) : value (code n) ≤ n
  /-- No other code that does not stand for more comes closer. -/
  best (n : Nat) (c : C) : value c ≤ n → value c ≤ value (code n)
  monotone {n n' : Nat} : n ≤ n' → code n ≤ code n'
  /-- A number that has a code is written as that code. -/
  again (c : C) : code (value c) = c
  largest (c : C) : value c ≤ value last
  saturates {n : Nat} : value last ≤ n → code n = last

theorem RoundsDown.of_bits {C : Type} [LE C] {bits : C → Nat} {code : Nat → C} {last : C}
    (bounded : ∀ c, bits c < 2 ^ (m + 4)) (order : ∀ {c c'}, bits c ≤ bits c' ↔ c ≤ c')
    (injective : bits.Injective) (all_ones : bits last = 2 ^ (m + 4) - 1)
    (written : ∀ n, encode m n < 2 ^ (m + 4) → bits (code n) = encode m n) :
    RoundsDown (fun c => decode m (bits c)) code last := by
  have greatest := isGreatest_bits bounded written
  have values {c c' : C} : decode m (bits c) ≤ decode m (bits c') ↔ c ≤ c' :=
    ((strictMonoOn_decode m).le_iff_le (bounded c) (bounded c')).trans order
  have eq_of_values {c c' : C} (same : decode m (bits c) = decode m (bits c')) : c = c' :=
    injective ((strictMonoOn_decode m).injOn (bounded c) (bounded c') same)
  have le (n : Nat) : decode m (bits (code n)) ≤ n := (greatest n).1.2
  have best (n : Nat) (c : C) (below : decode m (bits c) ≤ n) :
      decode m (bits c) ≤ decode m (bits (code n)) := (greatest n).2 ⟨⟨c, rfl⟩, below⟩
  have largest (c : C) : decode m (bits c) ≤ decode m (bits last) := by
    rw [all_ones, decode_last]
    exact decode_le (bounded c)
  exact {
    le := le
    best := best
    monotone := fun {n n'} h => values.1 (best n' (code n) ((le n).trans h))
    again := fun c => eq_of_values (le_antisymm (le _) (best _ c le_rfl))
    largest := largest
    saturates := fun {n} beyond => eq_of_values (le_antisymm (largest _) (best n last beyond)) }

/-- **Writing a number as a code rounds down**, to the largest value with a code that is not above
the number, for codes of one byte and of two. It is monotone, what was read from a code is written
as the same code again, and numbers beyond the largest value with a code get that code. -/
theorem codes_round_down :
    RoundsDown decode8 encode8 0xff ∧ RoundsDown decode16 encode16 0xffff :=
  ⟨.of_bits UInt8.toNat_lt UInt8.le_iff_toNat_le.symm (fun _ _ => UInt8.toNat_inj.1) rfl
    toNat_encode8,
  .of_bits UInt16.toNat_lt UInt16.le_iff_toNat_le.symm (fun _ _ => UInt16.toNat_inj.1) rfl
    toNat_encode16⟩

/-- Between 992 and 1024 there is no value with a one byte code. -/
example : decode8 (encode8 1000) = 992 ∧ decode8 (encode8 1000 + 1) = 1024 := by decide

end TimeCode

end MulticastTunnel
