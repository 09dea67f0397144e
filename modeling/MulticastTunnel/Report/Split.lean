import MulticastTunnel.Report.Basic

/-!
# Splitting reports

A report that is too long is sent in several parts, each filled with as many records as fit. A
record that does not even fit a report of its own is cut down first (RFC 3376 4.2.16, RFC 3810
5.2.15): its sources are spread over several records of the same kind, except where they are
exceptions. Leaving out exceptions asks for more than is wanted, but splitting them would ask for
everything.
-/

namespace MulticastTunnel

namespace Record

/-- The number of sources that a record of at most `limit` bytes can list, at least one. -/
def sourceCapacity (r : Record) (limit : Nat) : Nat :=
  max 1 ((limit - (4 + r.group.width)) / r.group.width)

/-- A list in pieces of `size` elements, the last of which may be shorter. As long as there are
elements, each piece has at least one, so `fuel` of the list's length is enough. -/
def pieces {α : Type} (size : Nat) : (fuel : Nat) → List α → List (List α)
  | 0, _ => []
  | _ + 1, [] => []
  | fuel + 1, l@(_ :: _) => l.take size :: pieces size fuel (l.drop size)

/-- Records of at most `limit` bytes that stand for one that may be longer. -/
def splitToFit (r : Record) (limit : Nat) : List Record :=
  if r.encodedLength ≤ limit then [r]
  else if r.kind.listsExceptions then
    [{ r with sources := r.sources.take (r.sourceCapacity limit) }]
  else
    (pieces (r.sourceCapacity limit) r.sources.length r.sources).map fun sources =>
      { r with sources }

end Record

namespace Report

/-- Fills parts of at most `limit` bytes with records, one after the other. `current` are the
records of the part being filled, the last one first, and `length` its length. -/
def fill (limit : Nat) : (current : List Record) → (length : Nat) → List Record → List Report
  | current, _, [] => if current.isEmpty then [] else [⟨current.reverse⟩]
  | current, length, r :: rest =>
    if !current.isEmpty && limit < length + r.encodedLength then
      ⟨current.reverse⟩ :: fill limit [r] (headerLength + r.encodedLength) rest
    else fill limit (r :: current) (length + r.encodedLength) rest

/-- The parts in which a report is sent if none may be longer than `limit`. -/
def splitToFit (report : Report) (limit : Nat) : List Report :=
  let limit := min limit maxLength
  fill limit [] headerLength
    (report.records.flatMap fun r => r.splitToFit (limit - headerLength))

end Report

end MulticastTunnel
