import MulticastTunnel.Datagram
import MulticastTunnel.Interest.Filter

/-!
# Channels

What a subscriber wants to receive: the datagrams sent to a group, from one source or from any,
to one port or to any.
-/

namespace MulticastTunnel

/-- A group, and a source and port if only theirs are wanted. -/
structure Channel where
  group : Address
  source : Option Address
  port : Option UInt16
  deriving DecidableEq, Inhabited

namespace Channel

/-- Whether a datagram belongs to the channel. -/
def matches? (c : Channel) (d : Datagram) : Bool :=
  c.group == d.destination.address
    && c.source.all (· == d.source.address)
    && c.port.all (· == d.destination.port)

/-- A datagram belongs to the channel if it is sent to the channel's group, and if it comes from
the source and is sent to the port that are given. -/
theorem matches?_iff {c : Channel} {d : Datagram} :
    c.matches? d ↔ c.group = d.destination.address ∧
      (∀ source, c.source = some source → source = d.source.address) ∧
      ∀ port, c.port = some port → port = d.destination.port := by
  obtain ⟨group, source, port⟩ := c
  cases source <;> cases port <;> simp [matches?, and_assoc]

/-- The filter that receives what the channel wants of its group. -/
def filter (c : Channel) : SourceFilter :=
  match c.source with
  | none => .allSources
  | some source => .including (.ofList [source])

/-- Why the channel can not be subscribed to: its source is of another family than its group. -/
def problem (c : Channel) : Option FilterProblem :=
  match c.source with
  | some source =>
    if source.sameFamily c.group then none else some (.familyMismatch source c.group)
  | none => none

end Channel

end MulticastTunnel
