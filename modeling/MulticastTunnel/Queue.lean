import MulticastTunnel.Failure

/-!
# Bounded queues

A queue hands elements from a sender to a receiver, first in, first out. It takes no more than
its capacity, and none after the receiver has gone.
-/

namespace MulticastTunnel

/-- Elements on their way from a sender to a receiver. -/
structure Queue (α : Type) where
  capacity : Nat
  waiting : List α
  /-- Nothing more will be sent. -/
  ended : Bool
  /-- The receiver has gone. -/
  abandoned : Bool
  deriving DecidableEq

/-- Whether a queue took an element, and if not, why. -/
inductive Offer where
  | taken
  | full
  | abandoned
  deriving DecidableEq

/-- What a receiver finds. -/
inductive Received (α : Type) where
  | element (a : α)
  | empty
  /-- All has been received, and nothing more will be sent. -/
  | ended
  | abandoned
  deriving DecidableEq

namespace Queue

variable {α : Type}

/-- An empty queue. -/
def empty (capacity : Nat) : Queue α := ⟨capacity, [], false, false⟩

/-- An empty queue with room for at least one element. -/
def empty? (capacity : Nat) : Except Fault (Queue α) :=
  if capacity = 0 then .error .noCapacity else .ok (empty capacity)

/-- Offers an element to the queue. -/
def offer (q : Queue α) (a : α) : Offer × Queue α :=
  if q.abandoned then (.abandoned, q)
  else if q.waiting.length < q.capacity then (.taken, { q with waiting := q.waiting ++ [a] })
  else (.full, q)

/-- Receives the first element. -/
def receive (q : Queue α) : Received α × Queue α :=
  if q.abandoned then (.abandoned, q)
  else
    match q.waiting with
    | a :: rest => (.element a, { q with waiting := rest })
    | [] => (if q.ended then .ended else .empty, q)

/-- The sender ends the queue; what is waiting can still be received. -/
def finish (q : Queue α) : Queue α := { q with ended := true }

/-- The receiver goes. -/
def abandon (q : Queue α) : Queue α := { q with waiting := [], abandoned := true }

end Queue

end MulticastTunnel
