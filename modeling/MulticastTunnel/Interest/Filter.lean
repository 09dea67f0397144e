import MulticastTunnel.Address.Set
import MulticastTunnel.Failure

/-!
# Source filters

What a host wants to receive of one multicast group: exactly the listed sources (INCLUDE mode) or
all but the listed sources (EXCLUDE mode). INCLUDE with no sources is no interest at all, EXCLUDE
with no sources is interest in everything.

`SourceFilter.union` combines the interest of several parties in one group. Whether a filter may
be asked for a group is decided by `SourceFilter.problemFor`, which names the first obstacle.
-/

namespace MulticastTunnel

/-- Whether the listed sources are those that are wanted, or those that are not. -/
inductive FilterMode where
  | including
  | excluding
  deriving DecidableEq, Inhabited

/-- The sources that are wanted of a group. -/
structure SourceFilter where
  mode : FilterMode
  sources : AddressSet
  deriving DecidableEq

/-- Why a filter can not be asked for. -/
inductive FilterProblem where
  | notMulticast (group : Address)
  | familyMismatch (source group : Address)
  | notASource (source : Address)
  /-- Source-specific groups have no EXCLUDE mode. -/
  | excludingSourceSpecific (group : Address)
  | duplicates (sources : List Address)
  deriving DecidableEq

/-- The explanation of a problem. -/
def FilterProblem.message : FilterProblem → String
  | notMulticast group => s!"{group.text} is not a multicast address"
  | familyMismatch source group =>
    s!"source {source.text} does not match the address family of group {group.text}"
  | notASource source => s!"{source.text} is not a valid source address"
  | excludingSourceSpecific group =>
    s!"EXCLUDE mode is not allowed for source specific group {group.text}"
  | duplicates sources =>
    "duplicate sources in [" ++ ", ".intercalate (sources.map Address.text) ++ "]"

/-- The error of a call with a filter that can not be asked for. -/
def FilterProblem.error (p : FilterProblem) : GatewayError := .invalidFilterOperation p.message

namespace SourceFilter

/-- INCLUDE mode with the given sources. -/
def including (sources : AddressSet) : SourceFilter := ⟨.including, sources⟩

/-- EXCLUDE mode with the given sources. -/
def excluding (sources : AddressSet) : SourceFilter := ⟨.excluding, sources⟩

/-- No interest. -/
def noInterest : SourceFilter := including ∅

/-- Interest in all sources. -/
def allSources : SourceFilter := excluding ∅

instance : Inhabited SourceFilter := ⟨noInterest⟩

/-- The filter of a mode and a list of distinct sources. -/
def ofDistinct (mode : FilterMode) (sources : List Address) : Except FilterProblem SourceFilter :=
  let set := AddressSet.ofList sources
  if set.size = sources.length then .ok ⟨mode, set⟩ else .error (.duplicates sources)

/-- Whether the filter selects no traffic at all. -/
def isEmpty (f : SourceFilter) : Bool := f.mode == .including && f.sources.isEmpty

/-- Whether traffic from a source passes the filter. -/
def accepts (f : SourceFilter) (source : Address) : Bool :=
  match f.mode with
  | .including => decide (source ∈ f.sources)
  | .excluding => !decide (source ∈ f.sources)

/-- Lists more sources, whatever the mode. -/
def add (f : SourceFilter) (sources : List Address) : SourceFilter :=
  { f with sources := f.sources ∪ AddressSet.ofList sources }

/-- Lists fewer sources, whatever the mode. -/
def remove (f : SourceFilter) (sources : List Address) : SourceFilter :=
  { f with sources := f.sources \ AddressSet.ofList sources }

/-- The filter that receives everything that either filter receives. -/
def union (f g : SourceFilter) : SourceFilter :=
  match f.mode, g.mode with
  | .including, .including => including (f.sources ∪ g.sources)
  | .excluding, .excluding => excluding (f.sources ∩ g.sources)
  | .including, .excluding => excluding (g.sources \ f.sources)
  | .excluding, .including => excluding (f.sources \ g.sources)

/-- Why a source can not be listed for a group, if it can not. -/
def sourceProblem (group source : Address) : Option FilterProblem :=
  if !source.sameFamily group then some (.familyMismatch source group)
  else if source.isMulticast || source.isUnspecified then some (.notASource source)
  else none

/-- The first reason why the filter can not be asked for a group, if there is one. -/
def problemFor (f : SourceFilter) (group : Address) : Option FilterProblem :=
  if !group.isMulticast then some (.notMulticast group)
  else
    match f.sources.toList.findSome? (sourceProblem group) with
    | some problem => some problem
    | none =>
      if f.mode == .excluding && group.isSourceSpecific then some (.excludingSourceSpecific group)
      else none

/-- Mode and sources. -/
def text (f : SourceFilter) : String :=
  (match f.mode with | .including => "IN" | .excluding => "EX") ++ f.sources.text

end SourceFilter

end MulticastTunnel
