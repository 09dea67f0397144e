/-!
# Time codes

Queries announce times in a floating point form. A `TimeCode` has a mantissa of some number of
bits (4 in one byte codes, 12 in two byte codes) below an exponent of three bits and a leading
bit. Without the leading bit the code is the value itself; with it, the mantissa is completed by
an implicit leading one and shifted left by the exponent plus three.

`TimeCode.encode` rounds down to a value that has a code; values beyond the largest one get the
largest code.
-/

namespace MulticastTunnel

namespace TimeCode

/-- The value of a code with `mantissaBits` bits of mantissa. -/
def decode (mantissaBits code : Nat) : Nat :=
  if code < 1 <<< (mantissaBits + 3) then code
  else
    let exponent := code >>> mantissaBits % 8
    (code % 1 <<< mantissaBits + 1 <<< mantissaBits) <<< (exponent + 3)

/-- The code with the first exponent, counted from `exponent`, for which the shifted value fits
the mantissa and its implicit leading bit. -/
def search (mantissaBits value : Nat) : (tries exponent : Nat) → Nat
  | 0, _ => 1 <<< (mantissaBits + 4) - 1
  | tries + 1, exponent =>
    let mantissa := value >>> (exponent + 3)
    if mantissa < 1 <<< (mantissaBits + 1) then
      1 <<< (mantissaBits + 3) + exponent <<< mantissaBits + mantissa % 1 <<< mantissaBits
    else search mantissaBits value tries (exponent + 1)

/-- The code of the largest value with a code that is not above the given one. -/
def encode (mantissaBits value : Nat) : Nat :=
  if value < 1 <<< (mantissaBits + 3) then value else search mantissaBits value 8 0

/-- The value of a one byte code. -/
def decode8 (code : UInt8) : Nat := decode 4 code.toNat

/-- The one byte code of a value, rounded down. -/
def encode8 (value : Nat) : UInt8 := UInt8.ofNat (encode 4 value)

/-- The value of a two byte code. -/
def decode16 (code : UInt16) : Nat := decode 12 code.toNat

/-- The two byte code of a value, rounded down. -/
def encode16 (value : Nat) : UInt16 := UInt16.ofNat (encode 12 value)

end TimeCode

end MulticastTunnel
