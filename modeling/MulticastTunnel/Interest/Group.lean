import MulticastTunnel.Alarm
import MulticastTunnel.Interest.Asked
import MulticastTunnel.Interest.Change

/-!
# The record of a group

Everything known about one group: what is wanted of it, and what is waiting to be reported, with
the alarms that will report it. The record is kept as long as one of these is left.
-/

namespace MulticastTunnel

/-- What is wanted of a group, and what is still to be reported about it. -/
structure GroupState where
  group : Address
  filter : SourceFilter
  /-- What the queries asked about that wait for a response. -/
  asked : Option AskedSources
  queryAlarm : Alarm
  /-- A change that waits for its next report. -/
  change : Option PendingChange
  changeAlarm : Alarm
  deriving DecidableEq

namespace GroupState

/-- Nothing is wanted of the group. -/
def fresh (group : Address) : GroupState := ⟨group, .noInterest, none, .idle, none, .idle⟩

/-- Whether nothing is wanted, and nothing is left to report. -/
def isEvictable (g : GroupState) : Bool :=
  g.filter.isEmpty && g.asked.isNone && g.change.isNone

/-- The record that tells what is wanted, if anything is. -/
def currentState (g : GroupState) : Option Record :=
  if g.filter.isEmpty then none
  else
    let kind := match g.filter.mode with
      | .including => RecordKind.isInclude
      | .excluding => RecordKind.isExclude
    some ⟨kind, g.group, g.filter.sources.toList⟩

/-- The sources among the given ones that are wanted. -/
def wantedAmong (g : GroupState) (sources : AddressSet) : AddressSet :=
  match g.filter.mode with
  | .including => g.filter.sources ∩ sources
  | .excluding => sources \ g.filter.sources

/-- The response to queries, if there is anything to tell. -/
def response (g : GroupState) : AskedSources → Option Record
  | .all => g.currentState
  | .only sources =>
    let wanted := g.wantedAmong sources
    if wanted.isEmpty then none else some ⟨.isInclude, g.group, wanted.toList⟩

/-- The number of alarms that are set to respond to queries. -/
def scheduledResponses (g : GroupState) : Nat := if g.queryAlarm.isSet then 1 else 0

end GroupState

/-! ### Records by group -/

/-- The records of groups, ascending by group. -/
abbrev Groups := List GroupState

namespace Groups

/-- The record of a group. -/
def get? (groups : Groups) (group : Address) : Option GroupState :=
  List.find? (fun g => g.group == group) groups

/-- Replaces the record of a group, or puts it into its place. -/
def put (state : GroupState) : Groups → Groups
  | [] => [state]
  | g :: rest =>
    if state.group < g.group then state :: g :: rest
    else if g.group < state.group then g :: put state rest
    else state :: rest

/-- Removes the record of a group. -/
def erase (group : Address) (groups : Groups) : Groups :=
  List.filter (fun g => g.group != group) groups

end Groups

end MulticastTunnel
