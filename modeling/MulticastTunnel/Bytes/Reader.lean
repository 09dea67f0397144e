import MulticastTunnel.Failure

/-!
# Reading packets

A `Reader` consumes bytes from the front of a packet. There are two kinds of reads:

* checked ones (`require`, `word`, `skip`, `u8`, …) reject a packet that is too short as
  malformed, naming the part that was being read;
* sure ones (`take`, `sureWord`, …) are for bytes whose presence was established by an earlier
  `require`. If they are missing after all, the outcome is a fault of the library, not of the
  packet.
-/

namespace MulticastTunnel

/-- Consumes bytes from the front of a packet. -/
abbrev Reader := StateT Bytes Outcome

namespace Reader

variable {α : Type}

/-- Rejects the packet. -/
def reject (cause : Malformed) : Reader α := fun _ => .error (.malformed cause)

/-! ### Checked reads -/

/-- Rejects the packet unless `needed` more bytes are there. -/
def require (what : String) (needed : Nat) : Reader Unit := fun bytes =>
  if Bytes.atLeast needed bytes then .ok ((), bytes)
  else .error (.malformed (.tooShort what needed bytes.length))

/-- Reads a number of `width` bytes. -/
def word (what : String) (width : Nat) : Reader Nat := fun bytes =>
  if bytes.atLeast width then .ok (Bytes.toNat (bytes.take width), bytes.drop width)
  else .error (.malformed (.tooShort what width bytes.length))

/-- Passes over `n` bytes. -/
def skip (what : String) (n : Nat) : Reader Unit := fun bytes =>
  if bytes.atLeast n then .ok ((), bytes.drop n)
  else .error (.malformed (.tooShort what n bytes.length))

/-- Reads a number of one byte. -/
def u8 (what : String) : Reader UInt8 := UInt8.ofNat <$> word what 1

/-- Reads a number of two bytes. -/
def u16 (what : String) : Reader UInt16 := UInt16.ofNat <$> word what 2

/-- Reads a number of four bytes. -/
def u32 (what : String) : Reader UInt32 := UInt32.ofNat <$> word what 4

/-- Reads an IPv4 address. -/
def addressV4 (what : String) : Reader (BitVec 32) := BitVec.ofNat 32 <$> word what 4

/-- Reads an IPv6 address. -/
def addressV6 (what : String) : Reader (BitVec 128) := BitVec.ofNat 128 <$> word what 16

/-- Reads an address of the given one's family. -/
def addressLike (what : String) : Address → Reader Address
  | .v4 _ => .v4 <$> addressV4 what
  | .v6 _ => .v6 <$> addressV6 what

/-! ### Sure reads -/

/-- The next `n` bytes, which have to be there. -/
def take (n : Nat) : Reader Bytes := fun bytes =>
  if bytes.atLeast n then .ok (bytes.take n, bytes.drop n)
  else .error (.fault (.pastEnd n bytes.length))

/-- The next number of `width` bytes, which have to be there. -/
def sureWord (width : Nat) : Reader Nat := Bytes.toNat <$> take width

/-! ### Whole packets -/

/-- The bytes that are left. -/
def rest : Reader Bytes := get

/-- Reads `n` parts, one after the other. -/
def repeated (part : Reader α) : Nat → Reader (List α)
  | 0 => pure []
  | n + 1 => do
    let first ← part
    let others ← repeated part n
    return first :: others

/-- Applies a reader to a packet, leaving the bytes after the last read unused. -/
def parse (reader : Reader α) (packet : Bytes) : Outcome α :=
  Prod.fst <$> reader packet

end Reader

end MulticastTunnel
