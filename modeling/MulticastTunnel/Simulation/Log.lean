import MulticastTunnel.Duration

/-!
# Logs of simulations

What independent parts of a simulation do within one millisecond has no order. A log is therefore
shown sorted, by time and then by text; a line is the time in milliseconds and the text. Long
texts are cut short.
-/

namespace MulticastTunnel

namespace Log

/-- A text, or its first 600 characters and its length. -/
def cut (s : String) : String :=
  if s.length ≤ 600 then s
  else String.ofList (s.toList.take 600) ++ "..." ++ toString s.length

/-- The order of lines. -/
def before (a b : Nat × String) : Bool := a.1 < b.1 || (a.1 == b.1 && decide (a.2 ≤ b.2))

/-- The lines of a log. -/
def lines (entries : List (Instant × String)) : List String :=
  ((entries.map fun (time, text) => (Duration.asMillis time, text)).mergeSort before).map
    fun (millis, text) => toString millis ++ " " ++ text

end Log

end MulticastTunnel
