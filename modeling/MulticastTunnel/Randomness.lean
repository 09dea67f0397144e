/-!
# Random values

Nonces and random delays come from two sequences that the gateway knows nothing about. The state
of a `Randomness` is how many values of each have been used.
-/

namespace MulticastTunnel

/-- Two sequences of random values, and how far they have been used. -/
structure Randomness where
  nonces : Nat → UInt32
  delays : Nat → Nat
  noncesDrawn : Nat
  delaysDrawn : Nat

namespace Randomness

/-- Sequences that have not been used. -/
def fresh (nonces : Nat → UInt32) (delays : Nat → Nat) : Randomness := ⟨nonces, delays, 0, 0⟩

/-- The next nonce. -/
def nonce (r : Randomness) : UInt32 := r.nonces r.noncesDrawn

/-- The next value for a random delay. -/
def delay (r : Randomness) : Nat := r.delays r.delaysDrawn

/-- The next nonce has been used. -/
def afterNonce (r : Randomness) : Randomness := { r with noncesDrawn := r.noncesDrawn + 1 }

/-- The next value for a random delay has been used. -/
def afterDelay (r : Randomness) : Randomness := { r with delaysDrawn := r.delaysDrawn + 1 }

end Randomness

end MulticastTunnel
