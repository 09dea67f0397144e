import MulticastTunnel.Duration

/-!
# Random delays

A response to a query is delayed by a random number of whole milliseconds in a window, so that
not all hosts answer at once. The random value is an input: `Jitter.delay` brings any number into
the window, and `Jitter.choices` is the number of delays there are to choose from. A window of
less than a millisecond leaves no choice and needs no random value.
-/

namespace MulticastTunnel

namespace Jitter

/-- The number of whole milliseconds in a window, at most 2^64 - 2. -/
def wholeMillis (window : Duration) : Nat := min window.asMillis 0xfffffffffffffffe

/-- The number of delays to choose from, none if there is nothing to choose. -/
def choices (window : Duration) : Option Nat :=
  if wholeMillis window = 0 then none else some (wholeMillis window + 1)

/-- The delay that a random value picks. -/
def delay (window : Duration) (random : Nat) : Duration :=
  Duration.ofMillis (random % (wholeMillis window + 1))

/-- The delays for windows, one after the other, with the number of delays that there were to
choose from. -/
def delays (randoms : Nat → Nat) : (drawn : Nat) → List Duration → List (Duration × Option Nat)
  | _, [] => []
  | drawn, window :: rest =>
    (delay window (randoms drawn), choices window)
      :: delays randoms (if (choices window).isSome then drawn + 1 else drawn) rest

end Jitter

end MulticastTunnel
