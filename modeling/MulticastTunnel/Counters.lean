/-!
# Counters

What a gateway has been doing, for monitoring.
-/

namespace MulticastTunnel

/-- The number of times that something happened. -/
structure Counters where
  /-- Datagrams that the sink took. -/
  delivered : Nat
  /-- Datagrams that the sink did not take. -/
  dropped : Nat
  /-- Messages, or packets in them, that were rejected. -/
  malformed : Nat
  reports : Nat
  /-- Times that the handshake failed with a relay. -/
  restarts : Nat
  deriving DecidableEq, Inhabited

namespace Counters

/-- Nothing has happened. -/
def zero : Counters := ⟨0, 0, 0, 0, 0⟩

/-- Something that is counted. -/
inductive Event where
  | delivered
  | dropped
  | malformed
  | report
  | restart
  deriving DecidableEq

/-- Counts one more event. -/
def count (c : Counters) : Event → Counters
  | .delivered => { c with delivered := c.delivered + 1 }
  | .dropped => { c with dropped := c.dropped + 1 }
  | .malformed => { c with malformed := c.malformed + 1 }
  | .report => { c with reports := c.reports + 1 }
  | .restart => { c with restarts := c.restarts + 1 }

end Counters

end MulticastTunnel
