import MulticastTunnel.Interest.Filter
import MulticastTunnel.Report.Basic

/-!
# Changes waiting to be reported

A change of a group's filter is reported unasked, several times since reports may get lost. While
transmissions are left, further changes are folded into the pending one: source changes add up,
a change of the mode supersedes them.
-/

namespace MulticastTunnel

/-- What changed. -/
inductive StateChange where
  /-- The mode; the report lists the sources of the time it is sent. -/
  | mode
  /-- The sources newly wanted and no longer wanted, the mode being the same. -/
  | sources (allow block : AddressSet)
  deriving DecidableEq

/-- A change and how often it is still to be reported. -/
structure PendingChange where
  change : StateChange
  transmissionsLeft : Nat
  deriving DecidableEq

namespace StateChange

/-- The change from one filter to another of the same mode. -/
def between (old new : SourceFilter) : AddressSet × AddressSet :=
  let added := new.sources \ old.sources
  let removed := old.sources \ new.sources
  match new.mode with
  | .including => (added, removed)
  | .excluding => (removed, added)

/-- Folds a change of the filter into a change that may be pending. -/
def fold (pending : Option StateChange) (old new : SourceFilter) : StateChange :=
  if old.mode ≠ new.mode then mode
  else
    let (allowed, blocked) := between old new
    match pending with
    | some mode => mode
    | some (sources allow block) => sources (allow \ blocked ∪ allowed) (block \ allowed ∪ blocked)
    | none => sources allowed blocked

end StateChange

namespace PendingChange

/-- The pending change after one more change of the filter, to be reported `robustness` times. -/
def record (pending : Option PendingChange) (old new : SourceFilter) (robustness : Nat) :
    PendingChange :=
  ⟨StateChange.fold (pending.map PendingChange.change) old new, robustness⟩

/-- The records of a transmission, where `current` is the group's filter at that time. -/
def records (p : PendingChange) (group : Address) (current : SourceFilter) : List Record :=
  match p.change with
  | .mode =>
    let kind := match current.mode with
      | .including => RecordKind.toInclude
      | .excluding => RecordKind.toExclude
    [⟨kind, group, current.sources.toList⟩]
  | .sources allow block =>
    (if allow.isEmpty then [] else [⟨.allow, group, allow.toList⟩])
      ++ (if block.isEmpty then [] else [⟨.block, group, block.toList⟩])

/-- What is left after a transmission, none if it was the last one. -/
def transmitted (p : PendingChange) : Option PendingChange :=
  if p.transmissionsLeft - 1 = 0 then none
  else some { p with transmissionsLeft := p.transmissionsLeft - 1 }

end PendingChange

end MulticastTunnel
