import MulticastTunnel.Message.Basic

/-!
# The nonces of messages that were sent

Answers to a gateway repeat the nonce of its last discovery message or request. `SentNonces`
remembers them, and a `NonceChoice` names a nonce before it is known.
-/

namespace MulticastTunnel

/-- The nonces of the last discovery message and the last request, 0 if there was none. -/
structure SentNonces where
  discovery : UInt32
  request : UInt32
  deriving DecidableEq

/-- A nonce for an answer. -/
inductive NonceChoice where
  | given (nonce : UInt32)
  /-- So much more than the nonce of the last discovery message. -/
  | ofDiscovery (more : UInt32)
  /-- So much more than the nonce of the last request. -/
  | ofRequest (more : UInt32)
  deriving DecidableEq

namespace SentNonces

/-- Nothing was sent. -/
def none : SentNonces := ⟨0, 0⟩

/-- Remembers the nonce of a message. -/
def remember (s : SentNonces) : Message → SentNonces
  | .discovery nonce => { s with discovery := nonce }
  | .request nonce _ => { s with request := nonce }
  | _ => s

/-- The nonce that was chosen. -/
def choose (s : SentNonces) : NonceChoice → UInt32
  | .given nonce => nonce
  | .ofDiscovery more => s.discovery + more
  | .ofRequest more => s.request + more

end SentNonces

end MulticastTunnel
