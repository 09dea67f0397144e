/-!
# Durations and instants

Both are counted in whole nanoseconds: a `Duration` is a length of time, an `Instant` is the time
that has passed since the clock was started. A duration is at most `Duration.longest`, the last
one whose seconds fit 64 bits. A clock has a last time, `Instant.last`: its seconds fit 63 bits. So
the time after a long duration may be one that the clock can not show. The operations of a model
count on beyond it; that a result fits the clock is a question of its own, and an operation whose
result does not fit breaks off.

There are two text forms: `Duration.text` for messages, in the largest unit that leaves a whole
part and with a fraction without trailing zeros (`1.5s`, `100.5ms`, `0ns`), and
`Duration.decimal`, seconds with exactly nine digits of fraction (`1.500000000`).
-/

namespace MulticastTunnel

/-- A length of time in nanoseconds. -/
abbrev Duration := Nat

/-- A point in time, in nanoseconds after the clock was started. -/
abbrev Instant := Nat

/-- The last time that a clock can show: 2^63 - 1 seconds and 999,999,999 nanoseconds. -/
def Instant.last : Instant := 0x8000000000000000 * 1000000000 - 1

namespace Duration

/-- A duration of whole seconds. -/
def ofSeconds (n : Nat) : Duration := n * 1000000000

/-- A duration of whole milliseconds. -/
def ofMillis (n : Nat) : Duration := n * 1000000

/-- The whole seconds of a duration. -/
def asSeconds (d : Duration) : Nat := d / 1000000000

/-- The whole milliseconds of a duration. -/
def asMillis (d : Duration) : Nat := d / 1000000

/-- The longest duration: 2^64 - 1 seconds and 999,999,999 nanoseconds. -/
def longest : Duration := 0x10000000000000000 * 1000000000 - 1

/-- The decimal digits of `n`, padded with zeros on the left to `width` digits. -/
def padded (width n : Nat) : String :=
  let digits := Nat.toDigits 10 n
  String.ofList (List.replicate (width - digits.length) '0' ++ digits)

/-- A count of a unit of `size` nanoseconds, with up to `places` digits of fraction; trailing
zeros are left out, and the point with them. -/
def inUnit (size places : Nat) (unit : String) (d : Duration) : String :=
  let whole := d / size
  let fraction := (padded places (d % size)).toList.reverse.dropWhile (· = '0') |>.reverse
  toString whole ++ (if fraction.isEmpty then "" else "." ++ String.ofList fraction) ++ unit

/-- The text in the largest unit that leaves a whole part. -/
def text (d : Duration) : String :=
  if 1000000000 ≤ d then inUnit 1000000000 9 "s" d
  else if 1000000 ≤ d then inUnit 1000000 6 "ms" d
  else if 1000 ≤ d then inUnit 1000 3 "µs" d
  else toString d ++ "ns"

/-- Seconds with nine digits of fraction. -/
def decimal (d : Duration) : String :=
  toString d.asSeconds ++ "." ++ padded 9 (d % 1000000000)

/-- Reads seconds with exactly nine digits of fraction. -/
def ofDecimal? (s : String) : Option Duration :=
  match s.splitOn "." with
  | [seconds, fraction] => do
    if fraction.length = 9 then some (ofSeconds (← seconds.toNat?) + (← fraction.toNat?))
    else none
  | _ => none

end Duration

end MulticastTunnel
