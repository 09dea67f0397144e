import MulticastTunnel.Session.Answers
import MulticastTunnel.Session.Timer
import MulticastTunnel.Simulation.SentNonces

/-!
# A session with a script of nonces

A session takes its nonces from a given sequence, and the nonces that it sent last are remembered,
so that answers to them can be made.
-/

namespace MulticastTunnel

/-- A session and the nonces that it uses. -/
structure ScriptedSession where
  now : Instant
  session : Session
  nonces : Nat → UInt32
  /-- The number of nonces used. -/
  drawn : Nat
  sent : SentNonces

namespace ScriptedSession

/-- A session that is about to begin. -/
def start (session : Session) (nonces : Nat → UInt32) : ScriptedSession :=
  ⟨0, session, nonces, 0, .none⟩

/-- The alarm of the session goes off. -/
def timer (s : ScriptedSession) : SessionStep × ScriptedSession :=
  let (step, session) := s.session.onTimer s.now (s.nonces s.drawn)
  let s := { s with session }
  match step with
  | .send message _ _ => (step, { s with drawn := s.drawn + 1, sent := s.sent.remember message })
  | _ => (step, s)

end ScriptedSession

end MulticastTunnel
