import MulticastTunnel.Duration

/-!
# Virtual time

A simulated system is driven by what falls due in it. The clock moves in whole milliseconds:
something that is due within a millisecond happens at its end. `System.advance` moves the clock
to a target, stopping wherever something is due; what that causes without delay happens before
the clock moves on.
-/

namespace MulticastTunnel

/-- A system in which things fall due. -/
structure System (S : Type) where
  /-- The time at which the next thing is due. -/
  due? : S → Option Instant
  /-- The first thing that is due happens. -/
  act : S → Instant → S

namespace System

variable {S : Type}

/-- The end of the millisecond that an instant is in. -/
def tick (i : Instant) : Instant := Duration.ofMillis ((i + 999999) / 1000000)

/-- Moves the clock from `now` to `target`, as long as `fuel` lasts. -/
def run (sys : System S) (target : Instant) : (fuel : Nat) → (now : Instant) → S → S
  | 0, _, s => s
  | fuel + 1, now, s =>
    match sys.due? s with
    | none => s
    | some due =>
      let time := max now (tick due)
      if time ≤ target then sys.run target fuel time (sys.act s time) else s

/-- More than a simulation of sensible length takes. -/
def plenty : Nat := 1000000000

/-- Moves the clock from `now` to `target`. -/
def advance (sys : System S) (now target : Instant) (s : S) : S := sys.run target plenty now s

end System

/-- A system at a time. -/
structure Simulation (S : Type) where
  now : Instant
  state : S

namespace Simulation

variable {S : Type}

/-- All that is due now happens. -/
def settle (sys : System S) (sim : Simulation S) : Simulation S :=
  { sim with state := sys.advance sim.now sim.now sim.state }

/-- Time passes. -/
def pass (sys : System S) (span : Duration) (sim : Simulation S) : Simulation S :=
  ⟨sim.now + span, sys.advance sim.now (sim.now + span) sim.state⟩

end Simulation

end MulticastTunnel
