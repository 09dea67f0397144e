import MulticastTunnel.Backoff
import MulticastTunnel.Message.Basic
import MulticastTunnel.Report.Basic

/-!
# Configuration

Everything that can be set about a gateway. `Config.standard` has the usual values for a given
discovery address, `Config.problem` names the first reason why a configuration can not be used.
-/

namespace MulticastTunnel

/-- The settings of a gateway. -/
structure Config where
  /-- Where discovery messages go, usually an address shared by several relays. -/
  discoveryAddress : Endpoint
  /-- The port of a relay's own address. -/
  relayPort : UInt16
  /-- The address of the gateway's socket. -/
  localAddress : Endpoint
  discoveryBackoff : BackoffConfig
  /-- Discovery fails after this many unanswered messages. -/
  maxDiscoveryAttempts : Nat
  requestBackoff : BackoffConfig
  /-- After this many unanswered requests the gateway looks for a relay again. -/
  maxRequestAttempts : Nat
  /-- How often the handshake may fall back from requests to discovery. -/
  maxHandshakeRestarts : Nat
  /-- The upper bound of the random delay of responses to queries. -/
  maxResponseDelay : Duration
  /-- The delay before a change is reported, in which further changes may join it. -/
  changeReportDelay : Duration
  /-- The time between two transmissions of a change. -/
  changeReportInterval : Duration
  /-- How often each change is reported. -/
  robustness : UInt8
  /-- The time between two refreshes of a tunnel whose relay does not tell one. -/
  defaultQueryInterval : Duration
  /-- The time between two discoveries while a tunnel is active. -/
  rediscoveryInterval : Duration
  /-- The number of socket errors in a row that ends a session. -/
  maxIoFailures : Nat
  /-- Whether the relay is asked for MLD rather than IGMP queries. -/
  preferMld : Bool
  /-- Whether the checksums of multicast datagrams are verified. -/
  verifyChecksums : Bool
  /-- The source addresses of reports. -/
  reporterV4 : BitVec 32
  reporterV6 : BitVec 128
  /-- The longest report that is sent in one piece. -/
  maxReportLength : Nat
  /-- The number of datagrams that may wait for a subscriber. -/
  queueCapacity : Nat
  deriving DecidableEq

namespace Config

/-- The unspecified address of the given one's family, with any port. -/
def anyLocal : Address → Endpoint
  | .v4 _ => .of (.v4 0) 0
  | .v6 _ => .of (.v6 0) 0

/-- The usual settings. -/
def standard (discoveryAddress : Endpoint) : Config where
  discoveryAddress
  relayPort := tunnelPort
  localAddress := anyLocal discoveryAddress.address
  discoveryBackoff := .doubling (.ofSeconds 1) (.ofSeconds 16)
  maxDiscoveryAttempts := 6
  requestBackoff := .doubling (.ofSeconds 1) (.ofSeconds 8)
  maxRequestAttempts := 4
  maxHandshakeRestarts := 3
  maxResponseDelay := .ofSeconds 10
  changeReportDelay := .ofMillis 50
  changeReportInterval := .ofSeconds 1
  robustness := 2
  defaultQueryInterval := .ofSeconds 125
  rediscoveryInterval := .ofSeconds 86400
  maxIoFailures := 5
  preferMld := false
  verifyChecksums := false
  reporterV4 := 0
  reporterV6 := 0
  maxReportLength := 1400
  queueCapacity := 1024

/-- Settings with short delays, for trials with a relay on the same host. -/
def quick : Config :=
  { standard (.of (.ofOctets 127 0 0 1) tunnelPort) with
    maxResponseDelay := .ofSeconds 1
    changeReportDelay := .ofMillis 50
    changeReportInterval := .ofSeconds 1
    robustness := 2 }

/-- The source address of reports about groups of a family. -/
def reporter (c : Config) (isV4 : Bool) : Address :=
  if isV4 then .v4 c.reporterV4 else .v6 c.reporterV6

/-- The window from which the delay of a response is drawn, zero being a query that leaves it
open. -/
def responseWindow (c : Config) (announced : Duration) : Duration :=
  if announced = 0 then c.maxResponseDelay else min announced c.maxResponseDelay

/-- The first reason why the settings can not be used, if there is one. -/
def problem (c : Config) : Option String :=
  c.discoveryBackoff.problem <|> c.requestBackoff.problem <|>
  if c.maxDiscoveryAttempts = 0 then some "max_discovery_attempts must be at least 1"
  else if c.maxRequestAttempts = 0 then some "max_request_attempts must be at least 1"
  else if c.robustness = 0 then some "robustness must be at least 1"
  else if c.defaultQueryInterval = 0 then some "default_query_interval must not be zero"
  else if c.rediscoveryInterval = 0 then some "relay_rediscovery_interval must not be zero"
  else if c.maxReportLength < 100 then some "max_report_payload is too small"
  else if Report.maxLength < c.maxReportLength then
    some ("max_report_payload must be at most " ++ toString Report.maxLength)
  else if c.queueCapacity = 0 then some "subscriber_channel_capacity must not be zero"
  else if !c.discoveryAddress.address.sameFamily c.localAddress.address then
    some ("relay discovery address " ++ c.discoveryAddress.text ++ " and local address "
      ++ c.localAddress.text ++ " have different address families")
  else none

end Config

end MulticastTunnel
