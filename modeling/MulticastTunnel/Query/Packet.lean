import MulticastTunnel.Query.Igmp
import MulticastTunnel.Query.Mld

/-!
# Queries in IP packets

The family of a packet decides between IGMP and MLD.
-/

namespace MulticastTunnel

namespace Query

/-- Reads the query that an IP packet carries. -/
def decode (packet : Bytes) : Outcome Query := ControlPacket.read Igmp.decode Mld.decode packet

/-- Writes the IP packet of a query that `querier` asks. -/
def encode (q : Query) : (querier : Address) → Outcome Bytes
  | .v4 querier => Igmp.encode q querier
  | .v6 querier => Mld.encode q querier

end Query

end MulticastTunnel
