import MulticastTunnel.Proofs.Alarm.Register
import MulticastTunnel.Proofs.Listener.Convergence
import MulticastTunnel.Proofs.Listener.Records
import MulticastTunnel.Proofs.Listener.Upkeep
import MulticastTunnel.Proofs.Session.Credentials
import MulticastTunnel.Proofs.Session.Effort
import MulticastTunnel.Proofs.Session.Handshake
import MulticastTunnel.Proofs.Session.Teardown
import MulticastTunnel.Proofs.Subscription.Alignment
import MulticastTunnel.Proofs.Tunnel.Clock
import MulticastTunnel.Proofs.Tunnel.End
import MulticastTunnel.Proofs.Tunnel.Leaving
import MulticastTunnel.Proofs.Tunnel.Strangers
import MulticastTunnel.Simulation.AlarmBoard
import MulticastTunnel.Simulation.Log
import MulticastTunnel.Simulation.Network
import MulticastTunnel.Simulation.ScriptedSession
import MulticastTunnel.Simulation.SlowSender
import MulticastTunnel.Proofs.Bytes.Reader
import MulticastTunnel.Proofs.Checksum
import MulticastTunnel.Proofs.Ip.Packet
import MulticastTunnel.Proofs.Ip.Control
import MulticastTunnel.Proofs.Message.Enclosed
import MulticastTunnel.Proofs.Report.Wire
import MulticastTunnel.Proofs.Message.Wire
import MulticastTunnel.Proofs.Query.RoundTrip
import MulticastTunnel.Proofs.Alarm.Runtime
import MulticastTunnel.Proofs.Alarm.Firings
import MulticastTunnel.Proofs.Datagram
import MulticastTunnel.Proofs.Message.Safety
import MulticastTunnel.Proofs.Listener.General
import MulticastTunnel.Proofs.Listener.GroupQueries
import MulticastTunnel.Proofs.Listener.Independence
import MulticastTunnel.Proofs.Report.Coverage
import MulticastTunnel.Proofs.Listener.Responses
import MulticastTunnel.Proofs.Tunnel.UpdateLength
import MulticastTunnel.Proofs.Subscription.Inbox
import MulticastTunnel.Proofs.Subscription.Deliveries
import MulticastTunnel.Proofs.Tunnel.Traffic
import MulticastTunnel.Proofs.Interest.Union
import MulticastTunnel.Proofs.Interest.Coalescing
import MulticastTunnel.Proofs.Report.Grammar
import MulticastTunnel.Proofs.Report.Packing
import MulticastTunnel.Proofs.Session.Chronicle
import MulticastTunnel.Proofs.Session.Schedule
import MulticastTunnel.Proofs.Session.Refresh
import MulticastTunnel.Proofs.Datagram.Corruption
import MulticastTunnel.Proofs.Checksum.Register
import MulticastTunnel.Proofs.Backoff
