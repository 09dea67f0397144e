import MulticastTunnel.Address.Text
import MulticastTunnel.Duration

/-!
# What can go wrong

There are three kinds of failure, kept apart:

* `Malformed`: a packet or message that came in is not well formed. This is an everyday event:
  the packet is dropped and counted.
* `Fault`: the library broke a promise to itself, such as reading bytes that it had to make sure
  of before. No input should lead to one.
* `GatewayError`: what a user of the gateway is told.

`Failure` joins the first two, as the outcome of reading and writing packets.
-/

namespace MulticastTunnel

/-- Everything for which a packet or message is rejected. `what` names the part that was being
read. -/
inductive Malformed where
  /-- The bytes ended before the part was complete. -/
  | tooShort (what : String) (needed available : Nat)
  /-- A length field contradicts the bytes that are there. -/
  | lengthOutOfBounds (what : String) (declared available : Nat)
  | unsupportedIpVersion (version : Nat)
  | unsupportedProtocol (protocol : UInt8) (expected : String)
  | fragmented
  | checksumMismatch (what : String)
  /-- A tunnel message of another protocol version than 0. -/
  | unsupportedVersion (version : Nat)
  | unknownMessageType (code : Nat)
  | unexpectedType (what : String) (code : UInt8)
  | invalidAddressLength (length : Nat)
  /-- Two addresses that have to be of one family are not. -/
  | familyMismatch (first second : Address)
  deriving DecidableEq, Inhabited

/-- The explanation shown for a rejected packet. -/
def Malformed.message : Malformed → String
  | tooShort what needed available =>
    s!"{what}: buffer too short, need {needed} bytes, have {available}"
  | lengthOutOfBounds what declared available =>
    s!"{what}: declared length {declared} does not fit the {available} available bytes"
  | unsupportedIpVersion version => s!"unsupported IP version {version}"
  | unsupportedProtocol protocol expected =>
    s!"unsupported protocol {protocol.toNat}, expected {expected}"
  | fragmented => "fragmented IP packets are not supported"
  | checksumMismatch what => s!"{what}: checksum mismatch"
  | unsupportedVersion version => s!"unsupported AMT version {version}"
  | unknownMessageType code => s!"unknown AMT message type {code}"
  | unexpectedType what code => s!"unexpected {what} type {code.toNat}"
  | invalidAddressLength length => s!"invalid address length {length}"
  | familyMismatch first second =>
    s!"address family mismatch between {first.text} and {second.text}"

/-- The name of the kind of rejection. -/
def Malformed.name : Malformed → String
  | tooShort .. => "TooShort"
  | lengthOutOfBounds .. => "LengthOutOfBounds"
  | unsupportedIpVersion .. => "UnsupportedIpVersion"
  | unsupportedProtocol .. => "UnsupportedProtocol"
  | fragmented => "Fragmented"
  | checksumMismatch .. => "ChecksumMismatch"
  | unsupportedVersion .. => "UnsupportedAmtVersion"
  | unknownMessageType .. => "UnknownMessageType"
  | unexpectedType .. => "UnexpectedType"
  | invalidAddressLength .. => "InvalidAddressLength"
  | familyMismatch .. => "AddressFamilyMismatch"

/-- A broken promise of the library to itself. -/
inductive Fault where
  /-- Bytes were taken that are not there. -/
  | pastEnd (needed available : Nat)
  /-- A number was written into a field of fewer bits than it needs. -/
  | doesNotFit (bits value : Nat)
  /-- Retransmission delays that would shrink. -/
  | shrinkingBackoff (factorEighths : Nat)
  /-- A queue without room for a single element. -/
  | noCapacity
  /-- A simulated host was to send where there is no network. -/
  | noNetwork
  deriving DecidableEq, Inhabited

/-- Why a packet could not be read or written. -/
inductive Failure where
  | malformed (cause : Malformed)
  | fault (cause : Fault)
  deriving DecidableEq, Inhabited

/-- The outcome of reading or writing a packet. -/
abbrev Outcome := Except Failure

namespace Outcome

/-- Rejects the packet. -/
def reject {α : Type} (cause : Malformed) : Outcome α := .error (.malformed cause)

/-- A number that has to fit a field of `bits` bits. -/
def fitting (bits value : Nat) : Outcome Nat :=
  if value < 1 <<< bits then .ok value else .error (.fault (.doesNotFit bits value))

/-- The bytes from `start` up to, but not including, `stop`, which have to be there. -/
def slice (start stop : Nat) (bytes : Bytes) : Outcome Bytes :=
  if start ≤ stop ∧ stop ≤ bytes.length then .ok (bytes.between start stop)
  else .error (.fault (.pastEnd (max start stop) bytes.length))

end Outcome

/-- An error of a socket: the name of its kind, and an explanation. -/
structure IoError where
  kind : String
  message : String
  deriving DecidableEq, Inhabited

/-- Whether the error says that nobody listens at the addressed port. -/
def IoError.isRefusal (e : IoError) : Bool := e.kind == "ConnectionRefused"

/-- What a user of the gateway is told. -/
inductive GatewayError where
  | discoveryFailed (attempts : Nat)
  | requestRejected (restarts : Nat)
  | requestTimeout (restarts : Nat)
  | malformedMessage (cause : Malformed)
  | socketIo (error : IoError)
  | invalidFilterOperation (reason : String)
  | notConnected
  | closed
  deriving DecidableEq, Inhabited

namespace GatewayError

/-- The explanation shown to the user. -/
def message : GatewayError → String
  | discoveryFailed attempts =>
    s!"relay discovery failed: no advertisement after {attempts} attempts"
  | requestRejected restarts =>
    s!"relay rejected the tunnel request after {restarts} handshake restarts"
  | requestTimeout restarts =>
    s!"relay did not answer the tunnel request after {restarts} handshake restarts"
  | malformedMessage cause => s!"malformed message: {cause.message}"
  | socketIo error => s!"socket I/O error ({error.kind}): {error.message}"
  | invalidFilterOperation reason => s!"invalid filter operation: {reason}"
  | notConnected => "no active tunnel"
  | closed => "gateway is closed"

/-- The name of the kind of error. -/
def name : GatewayError → String
  | discoveryFailed _ => "DiscoveryFailed"
  | requestRejected _ => "RequestRejected"
  | requestTimeout _ => "RequestTimeout"
  | malformedMessage _ => "MalformedMessage"
  | socketIo _ => "SocketIo"
  | invalidFilterOperation _ => "InvalidFilterOperation"
  | notConnected => "NotConnected"
  | closed => "Closed"

/-- Whether the error ends a session; the others answer a single call. -/
def isTerminal : GatewayError → Bool
  | discoveryFailed _ | requestRejected _ | requestTimeout _ | socketIo _ => true
  | _ => false

end GatewayError

end MulticastTunnel
