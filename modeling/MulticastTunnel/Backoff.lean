import MulticastTunnel.Failure

/-!
# Retransmission delays

The delay before a retransmission starts at an initial value and grows by a constant factor, up
to a maximum. Factors are counted in eighths, so 16 doubles the delay every time.
-/

namespace MulticastTunnel

/-- How delays grow. -/
structure BackoffConfig where
  initial : Duration
  max : Duration
  factorEighths : Nat
  deriving DecidableEq, Inhabited

namespace BackoffConfig

/-- Delays that double every time. -/
def doubling (initial max : Duration) : BackoffConfig := ⟨initial, max, 16⟩

/-- Why these delays can not be used, if they can not. -/
def problem (config : BackoffConfig) : Option String :=
  if config.initial = 0 then some "initial backoff delay must not be zero"
  else if config.max < config.initial then
    some ("initial backoff delay " ++ config.initial.text ++ " exceeds maximum "
      ++ config.max.text)
  else if config.factorEighths < 8 then some "backoff factor must be at least 8/8"
  else none

end BackoffConfig

/-- A sequence of delays that has come some way. -/
structure Backoff where
  config : BackoffConfig
  /-- The next delay. -/
  upcoming : Duration
  deriving DecidableEq, Inhabited

namespace Backoff

/-- The sequence from its start. -/
def start (config : BackoffConfig) : Backoff := ⟨config, config.initial⟩

/-- The sequence from its start, provided that its delays do not shrink. -/
def start? (config : BackoffConfig) : Except Fault Backoff :=
  if config.factorEighths < 8 then .error (.shrinkingBackoff config.factorEighths)
  else .ok (start config)

/-- The delay after a given one. A product beyond the longest duration counts as the maximum. -/
def grow (config : BackoffConfig) (delay : Duration) : Duration :=
  if delay * config.factorEighths ≤ Duration.longest then
    min (delay * config.factorEighths / 8) config.max
  else config.max

/-- The sequence after its next delay was taken. -/
def advance (b : Backoff) : Backoff := { b with upcoming := grow b.config b.upcoming }

/-- The sequence from its start again. -/
def reset (b : Backoff) : Backoff := start b.config

end Backoff

end MulticastTunnel
