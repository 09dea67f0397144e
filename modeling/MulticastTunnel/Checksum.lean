import MulticastTunnel.Address.Basic

/-!
# The internet checksum

The checksum of IP, IGMP, ICMPv6 and UDP (RFC 1071): the complement of the end-around-carry sum
of the big endian 16 bit words. It is taken over several byte strings as over one: an odd byte at
the end of one string is paired with the first byte of the next, and at the very end with zero.

For upper layer checksums, a pseudo header made of the addresses comes first.
-/

namespace MulticastTunnel

namespace Checksum

/-- The words summed so far, and the first half of a word whose second half is still to come. -/
structure Accumulator where
  sum : Nat
  half : Option UInt8
  deriving DecidableEq, Inhabited

namespace Accumulator

/-- Nothing summed yet. -/
def zero : Accumulator := ⟨0, none⟩

/-- Adds one byte. -/
def feedByte (acc : Accumulator) (b : UInt8) : Accumulator :=
  match acc.half with
  | some high => ⟨acc.sum + (high.toNat * 256 + b.toNat), none⟩
  | none => ⟨acc.sum, some b⟩

/-- Adds a byte string. -/
def feed (acc : Accumulator) (bytes : Bytes) : Accumulator :=
  bytes.foldl feedByte acc

/-- The sum, with a missing second half read as zero. -/
def total (acc : Accumulator) : Nat :=
  match acc.half with
  | some high => acc.sum + high.toNat * 256
  | none => acc.sum

end Accumulator

/-- Adds the carries beyond 16 bits back in at the low end until none is left. -/
def foldCarries (sum : Nat) : Nat :=
  if sum ≤ 0xffff then sum else foldCarries (sum % 0x10000 + sum / 0x10000)
termination_by sum
decreasing_by omega

/-- The checksum over several byte strings as over one. -/
def internet (parts : List Bytes) : UInt16 :=
  ~~~ (UInt16.ofNat (foldCarries (parts.foldl Accumulator.feed .zero).total))

/-- The pseudo header of an upper layer checksum over IPv4. -/
def pseudoHeaderV4 (source destination : BitVec 32) (protocol : UInt8) (length : Nat) : Bytes :=
  Bytes.ofNat 4 source.toNat ++ Bytes.ofNat 4 destination.toNat
    ++ [0, protocol] ++ Bytes.ofNat 2 length

/-- The pseudo header of an upper layer checksum over IPv6. -/
def pseudoHeaderV6 (source destination : BitVec 128) (length : Nat) (protocol : UInt8) : Bytes :=
  Bytes.ofNat 16 source.toNat ++ Bytes.ofNat 16 destination.toNat
    ++ Bytes.ofNat 4 length ++ [0, 0, 0, protocol]

end Checksum

end MulticastTunnel
