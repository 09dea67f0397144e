import MulticastTunnel.Bytes.Basic

/-!
# Addresses and endpoints

An `Address` is an IPv4 address (32 bits) or an IPv6 address (128 bits); an `Endpoint` adds a
port. Addresses are ordered: all of IPv4 before all of IPv6, and by number within a family. The
order is that of the injective key `Address.rank`, so it is total.

The classes of addresses that matter here are the multicast groups, the source-specific groups
among them (232/8 and ff3x::/32), and the unspecified address.
-/

namespace MulticastTunnel

/-- An IPv4 or IPv6 address. -/
inductive Address where
  | v4 (bits : BitVec 32)
  | v6 (bits : BitVec 128)
  deriving DecidableEq, Inhabited

namespace Address

/-- The IPv4 address with the given octets. -/
def ofOctets (a b c d : UInt8) : Address :=
  .v4 (BitVec.ofNat 32 (Bytes.toNat [a, b, c, d]))

/-- Whether this is an IPv4 address. -/
def isV4 : Address → Bool
  | v4 _ => true
  | v6 _ => false

/-- The number of bytes an address of this family takes. -/
def width : Address → Nat
  | v4 _ => 4
  | v6 _ => 16

/-- The bits as a number. -/
def toNat : Address → Nat
  | v4 bits => bits.toNat
  | v6 bits => bits.toNat

/-- The bytes of the address, in network order. -/
def toBytes (a : Address) : Bytes :=
  Bytes.ofNat a.width a.toNat

/-- Two addresses of one family. -/
def sameFamily (a b : Address) : Bool :=
  a.isV4 == b.isV4

/-- The leading byte. -/
def leadingByte : Address → Nat
  | v4 bits => bits.toNat >>> 24
  | v6 bits => bits.toNat >>> 120

/-- The groups: 224/4 in IPv4, ff00::/8 in IPv6. -/
def isMulticast : Address → Bool
  | a@(v4 _) => 224 ≤ a.leadingByte && a.leadingByte < 240
  | a@(v6 _) => a.leadingByte == 255

/-- The unspecified address, all of whose bits are zero. -/
def isUnspecified (a : Address) : Bool :=
  a.toNat == 0

/-- The 16 bit group of an IPv6 address at `index`, counted from the most significant one. -/
def segment (bits : BitVec 128) (index : Nat) : Nat :=
  bits.toNat >>> (16 * (7 - index)) % 0x10000

/-- The groups reserved for source-specific multicast: 232/8, and ff3x::/32. -/
def isSourceSpecific : Address → Bool
  | a@(v4 _) => a.leadingByte == 232
  | v6 bits => segment bits 0 / 16 == 0xff3 && segment bits 1 == 0

/-- The address `n` places further on, counting within the bits of its family. -/
def advance (n : Nat) : Address → Address
  | v4 bits => v4 (bits + BitVec.ofNat 32 n)
  | v6 bits => v6 (bits + BitVec.ofNat 128 n)

/-- The IPv4-mapped form ::ffff:a.b.c.d of an IPv4 address, and an IPv6 address as it is. -/
def mapped : Address → BitVec 128
  | v4 bits => BitVec.ofNat 128 (0xffff00000000 + bits.toNat)
  | v6 bits => bits

/-- The place of an address in the order: IPv4 first, then by number. -/
def rank : Address → Nat
  | v4 bits => bits.toNat
  | v6 bits => 0x100000000 + bits.toNat

instance : LT Address := ⟨fun a b => a.rank < b.rank⟩

instance (a b : Address) : Decidable (a < b) :=
  inferInstanceAs (Decidable (a.rank < b.rank))

theorem lt_iff_rank {a b : Address} : a < b ↔ a.rank < b.rank := Iff.rfl

theorem rank_inj {a b : Address} : a.rank = b.rank ↔ a = b := by
  constructor
  · intro h
    match a, b with
    | v4 x, v4 y => exact congrArg v4 (BitVec.eq_of_toNat_eq h)
    | v6 x, v6 y => exact congrArg v6 (BitVec.eq_of_toNat_eq (by simpa [rank] using h))
    | v4 x, v6 y => have := x.isLt; simp only [rank] at h; omega
    | v6 x, v4 y => have := y.isLt; simp only [rank] at h; omega
  · rintro rfl; rfl

@[simp] theorem length_toBytes (a : Address) : a.toBytes.length = a.width := by
  simp [toBytes]

end Address

/-- An address and a port: one end of a datagram's way. Over IPv6 an end may also have a flow
label and the scope of its address, which is the number of a link; otherwise both are zero. -/
structure Endpoint where
  address : Address
  port : UInt16
  flow : UInt32
  scope : UInt32
  deriving DecidableEq, Inhabited

namespace Endpoint

/-- The end with an address and a port only. -/
def of (address : Address) (port : UInt16) : Endpoint := ⟨address, port, 0, 0⟩

/-- An end without its flow label and scope. -/
def bare (e : Endpoint) : Endpoint := of e.address e.port

theorem bare_eq_self_iff {e : Endpoint} : e.bare = e ↔ e.flow = 0 ∧ e.scope = 0 := by
  obtain ⟨address, port, flow, scope⟩ := e
  simp [bare, of, eq_comm]

end Endpoint

end MulticastTunnel
