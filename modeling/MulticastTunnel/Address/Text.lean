import MulticastTunnel.Address.Basic

/-!
# The text form of addresses

IPv4 addresses are dotted decimal. IPv6 addresses are colon separated hexadecimal groups without
leading zeros, in which the longest run of at least two zero groups (the first one on a tie) is
written as `::`; an IPv4-mapped address ends in dotted decimal. An endpoint appends the port,
after putting an IPv6 address into brackets; a scope other than zero stands behind the address,
after a percent sign.

`Address.text` and `Endpoint.text` write these forms, `Address.ofText?` and `Endpoint.ofText?`
read them.
-/

namespace MulticastTunnel

namespace Address

/-! ### Writing -/

/-- Dotted decimal. -/
def dotted (bits : BitVec 32) : String :=
  ".".intercalate ((Bytes.ofNat 4 bits.toNat).map fun b => toString b.toNat)

/-- A group in hexadecimal, without leading zeros. -/
def hexText (n : Nat) : String :=
  String.ofList (Nat.toDigits 16 n)

/-- Start and length of the longest run of zero groups, the first one on a tie. The run that
ends at the current position starts at `start`. -/
def longestZeroRun (groups : List Nat) : Nat × Nat :=
  go groups 0 0 (0, 0)
where
  go : List Nat → (position start : Nat) → (best : Nat × Nat) → Nat × Nat
    | [], _, _, best => best
    | g :: rest, position, start, best =>
      if g = 0 then
        let length := position + 1 - start
        go rest (position + 1) start (if best.2 < length then (start, length) else best)
      else go rest (position + 1) (position + 1) best

/-- Colon separated groups. -/
def colonText (groups : List Nat) : String :=
  ":".intercalate (groups.map hexText)

/-- The text of an IPv6 address. -/
def textV6 (bits : BitVec 128) : String :=
  if bits.toNat >>> 32 = 0xffff then
    "::ffff:" ++ dotted (BitVec.ofNat 32 bits.toNat)
  else
    let groups := (List.range 8).map (segment bits)
    let (start, length) := longestZeroRun groups
    if 1 < length then
      colonText (groups.take start) ++ "::" ++ colonText (groups.drop (start + length))
    else colonText groups

/-- The text of an address. -/
def text : Address → String
  | v4 bits => dotted bits
  | v6 bits => textV6 bits

instance : ToString Address := ⟨text⟩

/-! ### Reading -/

/-- The value of a digit in base 10 or 16, upper case letters included. -/
def digitValue? (base : Nat) (c : Char) : Option Nat :=
  let value :=
    if c.isDigit then some (c.toNat - '0'.toNat)
    else if 'a' ≤ c ∧ c ≤ 'f' then some (c.toNat - 'a'.toNat + 10)
    else if 'A' ≤ c ∧ c ≤ 'F' then some (c.toNat - 'A'.toNat + 10)
    else none
  value.filter (· < base)

/-- A number of one or more digits, leading zeros included. -/
def number? (base : Nat) (cs : List Char) : Option Nat :=
  if cs.isEmpty then none
  else cs.foldl (fun n c => do return (← n) * base + (← digitValue? base c)) (some 0)

/-- Splits at every occurrence of a separator. -/
def splitAt (separator : Char) : List Char → List (List Char)
  | [] => [[]]
  | c :: rest =>
    if c = separator then [] :: splitAt separator rest
    else match splitAt separator rest with
      | [] => [[c]]
      | part :: parts => (c :: part) :: parts

/-- One octet of a dotted decimal address: no leading zero, at most 255. -/
def octet? (cs : List Char) : Option Nat := do
  let n ← number? 10 cs
  if n < 256 ∧ ¬ (1 < cs.length ∧ cs.head? = some '0') then some n else none

/-- Reads dotted decimal. -/
def ofDotted? (cs : List Char) : Option (BitVec 32) := do
  let octets ← (splitAt '.' cs).mapM octet?
  if octets.length = 4 then
    some (BitVec.ofNat 32 (octets.foldl (fun n o => n * 256 + o) 0))
  else none

/-- One group of an IPv6 address: at most four digits. -/
def group? (cs : List Char) : Option Nat :=
  if cs.length ≤ 4 then number? 16 cs else none

/-- Reads colon separated groups. The last one may be in dotted decimal, standing for two, where
`dottedTail` says so. -/
def groups? (dottedTail : Bool) : List (List Char) → Option (List Nat)
  | [] => some []
  | [part] =>
    if dottedTail && part.contains '.' then do
      let bits ← ofDotted? part
      return [bits.toNat >>> 16, bits.toNat % 0x10000]
    else do return [← group? part]
  | part :: rest => do return (← group? part) :: (← groups? dottedTail rest)

/-- Splits at the first double colon. -/
def splitGap : List Char → Option (List Char × List Char)
  | ':' :: ':' :: rest => some ([], rest)
  | c :: rest => (splitGap rest).map fun (before, after) => (c :: before, after)
  | [] => none

/-- The groups between two colons, none for the empty text. -/
def side? (dottedTail : Bool) (cs : List Char) : Option (List Nat) :=
  if cs.isEmpty then some [] else groups? dottedTail (splitAt ':' cs)

/-- Reads the text of an IPv6 address. A double colon stands for at least one zero group. -/
def ofColons? (cs : List Char) : Option (BitVec 128) := do
  let groups ← match splitGap cs with
    | none => side? true cs
    | some (before, after) => do
      let before ← side? false before
      let after ← side? true after
      let gap := 8 - before.length - after.length
      if gap = 0 then none
      else some (before ++ List.replicate gap 0 ++ after)
  if groups.length = 8 then
    some (BitVec.ofNat 128 (groups.foldl (fun n g => n * 0x10000 + g) 0))
  else none

/-- Reads an address of either family. -/
def ofText? (s : String) : Option Address :=
  (ofDotted? s.toList).map v4 <|> (ofColons? s.toList).map v6

end Address

namespace Endpoint

/-- The text of an endpoint. -/
def text (e : Endpoint) : String :=
  match e.address with
  | .v4 bits => Address.dotted bits ++ ":" ++ toString e.port.toNat
  | .v6 bits =>
    let scope := if e.scope = 0 then "" else "%" ++ toString e.scope.toNat
    "[" ++ Address.textV6 bits ++ scope ++ "]:" ++ toString e.port.toNat

instance : ToString Endpoint := ⟨text⟩

/-- Reads an IPv6 address and its scope, if there is one. -/
def ofScoped? (cs : List Char) : Option (BitVec 128 × UInt32) :=
  match Address.splitAt '%' cs with
  | [colons] => do return (← Address.ofColons? colons, 0)
  | [colons, scope] => do
    let scope ← Address.number? 10 scope
    if scope < 0x100000000 then some (← Address.ofColons? colons, UInt32.ofNat scope) else none
  | _ => none

/-- Reads the text of an endpoint. The port and the scope may have any number of leading zeros. -/
def ofText? (s : String) : Option Endpoint := do
  let parts := Address.splitAt ':' s.toList
  let port ← Address.number? 10 (← parts.getLast?)
  let host := ":".intercalate (parts.dropLast.map String.ofList)
  if 0x10000 ≤ port then none
  else if host.startsWith "[" && host.endsWith "]" then
    let (bits, scope) ← ofScoped? host.toList.tail.dropLast
    some ⟨.v6 bits, UInt16.ofNat port, 0, scope⟩
  else
    let bits ← Address.ofDotted? host.toList
    some (of (.v4 bits) (UInt16.ofNat port))

end Endpoint

end MulticastTunnel
