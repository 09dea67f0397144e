import MulticastTunnel.Address.Set

/-!
# What queries asked about

Several queries for one group may wait for a single response, which then has to cover all sources
that any of them asked about.
-/

namespace MulticastTunnel

/-- The sources that the queries waiting for a response asked about. -/
inductive AskedSources where
  /-- At least one query asked about the group as a whole. -/
  | all
  | only (sources : AddressSet)
  deriving DecidableEq

namespace AskedSources

/-- What a query with these sources asks about; one without sources asks about all. -/
def ofQuery : List Address → AskedSources
  | [] => all
  | sources => only (AddressSet.ofList sources)

/-- What was asked about before, or by one more query. -/
def merge (asked : AskedSources) (sources : List Address) : AskedSources :=
  match asked, sources with
  | all, _ => all
  | only _, [] => all
  | only earlier, sources => only (earlier ∪ AddressSet.ofList sources)

end AskedSources

end MulticastTunnel
