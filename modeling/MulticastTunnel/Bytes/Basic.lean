/-!
# Bytes and big endian words

Packets are byte strings, and every number in them is written most significant byte first.

* `Bytes.ofNat` writes the low `width` bytes of a number, `Bytes.toNat` reads a number back;
* `Bytes.atLeast` asks for a minimum length without walking the whole string;
* `Bytes.toHex` is the lower case hexadecimal form.

`Bytes.toNat_ofNat` ties the first two together: a word that fits its width is read back as it
was written.
-/

namespace MulticastTunnel

/-- A byte string. -/
abbrev Bytes := List UInt8

namespace Bytes

/-- The low `width` bytes of `value`, most significant first. -/
def ofNat : (width value : Nat) → Bytes
  | 0, _ => []
  | width + 1, value => UInt8.ofNat (value >>> (8 * width)) :: ofNat width value

/-- The number whose base 256 digits are the given bytes, most significant first. -/
def toNat (bytes : Bytes) : Nat :=
  bytes.foldl (fun n b => n * 256 + b.toNat) 0

/-- Whether there are at least `n` bytes. -/
def atLeast : Nat → Bytes → Bool
  | 0, _ => true
  | _ + 1, [] => false
  | n + 1, _ :: rest => atLeast n rest

/-- The bytes from `start` up to, but not including, `stop`. -/
def between (start stop : Nat) (bytes : Bytes) : Bytes :=
  (bytes.drop start).take (stop - start)

/-- The bytes with the two byte word `value` written over those at `position` and after it. -/
def patchWord (position : Nat) (value : UInt16) (bytes : Bytes) : Bytes :=
  bytes.take position ++ ofNat 2 value.toNat ++ bytes.drop (position + 2)

/-- One hexadecimal digit, lower case. -/
def hexDigit (n : Nat) : Char :=
  if n < 10 then Char.ofNat ('0'.toNat + n) else Char.ofNat ('a'.toNat + (n - 10))

/-- The lower case hexadecimal form, two digits a byte. -/
def toHex (bytes : Bytes) : String :=
  String.ofList (bytes.flatMap fun b => [hexDigit (b.toNat / 16), hexDigit (b.toNat % 16)])

@[simp] theorem length_ofNat (width value : Nat) : (ofNat width value).length = width := by
  induction width with
  | zero => rfl
  | succ width ih => simp [ofNat, ih]

theorem atLeast_eq (n : Nat) (bytes : Bytes) : atLeast n bytes = decide (n ≤ bytes.length) := by
  induction n generalizing bytes with
  | zero => simp [atLeast]
  | succ n ih =>
    cases bytes with
    | nil => simp [atLeast]
    | cons b rest => simp [atLeast, ih]

theorem foldl_ofNat (width value start : Nat) :
    (ofNat width value).foldl (fun n b => n * 256 + b.toNat) start
      = start <<< (8 * width) + value % 1 <<< (8 * width) := by
  induction width generalizing start with
  | zero => simp [ofNat, Nat.mod_one]
  | succ width ih =>
    simp only [ofNat, List.foldl_cons, ih, UInt8.toNat_ofNat', Nat.shiftLeft_eq, Nat.one_mul,
      Nat.shiftRight_eq_div_pow, Nat.mul_succ 8, Nat.pow_add, Nat.mod_mul]
    rw [Nat.add_mul, Nat.mul_assoc start, Nat.mul_comm 256, Nat.mul_comm (_ % 256), Nat.add_assoc,
      Nat.add_comm (_ * _ : Nat) (value % _)]

/-- A word is read back as it was written, up to the width it was written with. -/
theorem toNat_ofNat (width value : Nat) :
    toNat (ofNat width value) = value % 1 <<< (8 * width) := by
  simp [toNat, foldl_ofNat]

end Bytes

end MulticastTunnel
