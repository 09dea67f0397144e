import MulticastTunnel.Failure

/-!
# Membership queries

What a querier wants to know: the state of all groups, of one group, or of some sources of one
group. The two wire forms are IGMP (for IPv4) and MLD (for IPv6); older versions of both say
nothing about robustness and query interval.
-/

namespace MulticastTunnel

/-- A general, group-specific or group-and-source-specific query. -/
structure Query where
  /-- The group asked about, none in a general query. -/
  group : Option Address
  /-- The sources asked about, none unless the query is group-and-source-specific. -/
  sources : List Address
  /-- Zero if the query leaves it open. -/
  maxResponseDelay : Duration
  suppressRouterProcessing : Bool
  /-- The querier's robustness, if it tells. -/
  robustness : Option UInt8
  /-- The querier's query interval, if it tells. -/
  interval : Option Duration
  deriving DecidableEq, Inhabited

namespace Query

/-- A general query. -/
def general (maxResponseDelay : Duration) : Query :=
  ⟨none, [], maxResponseDelay, false, none, none⟩

/-- Whether the query asks about all groups. -/
def isGeneral (q : Query) : Bool := q.group.isNone

/-! ### Parts of both wire forms -/

/-- The byte with the suppress flag and the robustness, of which three bits are written. -/
def flags (q : Query) : UInt8 :=
  UInt8.ofNat ((if q.suppressRouterProcessing then 8 else 0) + (q.robustness.getD 0).toNat % 8)

/-- The suppress flag of a flags byte. -/
def suppressOfFlags (flags : UInt8) : Bool := flags.toNat / 8 % 2 == 1

/-- The robustness of a flags byte; zero means that the querier does not tell. -/
def robustnessOfFlags (flags : UInt8) : Option UInt8 :=
  let robustness := flags.toNat % 8
  if robustness = 0 then none else some (UInt8.ofNat robustness)

/-- The interval in whole seconds, in the 32 bits that a code is computed from; zero if there is
none. -/
def intervalSeconds (q : Query) : Nat := (q.interval.map Duration.asSeconds).getD 0 % 0x100000000

/-- The interval of a number of seconds; zero means that the querier does not tell. -/
def intervalOfSeconds (seconds : Nat) : Option Duration :=
  if seconds = 0 then none else some (Duration.ofSeconds seconds)

end Query

end MulticastTunnel
