import MulticastTunnel.Listener.Calls
import MulticastTunnel.Queue
import MulticastTunnel.Subscription.Channel

/-!
# Subscriptions

Datagrams are handed to the subscribers of their channels through bounded queues; a subscriber
that does not keep up misses some. What is wanted of a group follows its subscriptions: all
sources if one of them takes any source, else the sources they name. So the first subscription
joins a group and the last one leaves it.

A subscription ends when it is cancelled, or when its receiver has gone and a datagram for it
comes in.
-/

namespace MulticastTunnel

/-- A subscription that has not ended. Its number is that of its queue. -/
structure Subscription where
  id : Nat
  channel : Channel
  deriving DecidableEq

/-- The subscriptions, and the queues of all that there ever were. -/
structure Subscriptions where
  /-- The number of datagrams that a queue holds. -/
  capacity : Nat
  /-- By number, ascending. -/
  active : List Subscription
  /-- The queue of each subscription, at the place that its number says. -/
  queues : List (Queue Datagram)
  deriving DecidableEq

namespace Subscriptions

/-- No subscriptions yet. -/
def empty (capacity : Nat) : Subscriptions := ⟨capacity, [], []⟩

/-- The number of the next subscription. -/
def nextId (s : Subscriptions) : Nat := s.queues.length

/-- The filter that receives what all subscribers of a group want. -/
def aggregate (s : Subscriptions) (group : Address) : SourceFilter :=
  let channels := (s.active.map Subscription.channel).filter fun c => c.group == group
  if channels.any fun c => c.source.isNone then .allSources
  else .including (.ofList (channels.filterMap Channel.source))

/-- The active subscription with a number. -/
def find? (s : Subscriptions) (id : Nat) : Option Subscription :=
  s.active.find? fun subscription => subscription.id == id

/-- Changes the queue of a subscription. -/
def modifyQueue (s : Subscriptions) (id : Nat) (f : Queue Datagram → Queue Datagram) :
    Subscriptions :=
  { s with queues := s.queues.modify id f }

/-- Adds a subscription with an empty queue. -/
def add (s : Subscriptions) (channel : Channel) (queue : Queue Datagram) : Subscriptions :=
  { s with active := s.active ++ [⟨s.nextId, channel⟩], queues := s.queues ++ [queue] }

/-- Takes a subscription away, and ends its queue. -/
def remove (s : Subscriptions) (id : Nat) : Subscriptions :=
  { s with active := s.active.filter fun subscription => subscription.id != id }.modifyQueue id
    Queue.finish

/-- The receiver of a subscription looks for a datagram. -/
def receive (s : Subscriptions) (id : Nat) : Option (Received Datagram) × Subscriptions :=
  ((s.queues[id]?).map fun q => q.receive.1, s.modifyQueue id fun q => q.receive.2)

/-- The receiver of a subscription goes. -/
def abandon (s : Subscriptions) (id : Nat) : Subscriptions := s.modifyQueue id Queue.abandon

/-- Offers a datagram to the queue of a subscription. -/
def offer (s : Subscriptions) (id : Nat) (d : Datagram) : Offer × Subscriptions :=
  match s.queues[id]? with
  | some q => ((q.offer d).1, { s with queues := s.queues.set id (q.offer d).2 })
  | none => (.abandoned, s)

/-- Offers a datagram to some subscriptions, one after the other. The results are the number of
those that took it, and those whose receiver has gone. -/
def offerAll (s : Subscriptions) (d : Datagram) :
    List Subscription → Nat × List Subscription × Subscriptions
  | [] => (0, [], s)
  | subscription :: rest =>
    let (result, s) := s.offer subscription.id d
    let (taken, gone, s) := s.offerAll d rest
    match result with
    | .taken => (taken + 1, gone, s)
    | .full => (taken, gone, s)
    | .abandoned => (taken, subscription :: gone, s)

end Subscriptions

/-- Why a subscription was not made. -/
inductive SubscribeFailure where
  | refused (error : GatewayError)
  | fault (cause : Fault)
  deriving DecidableEq

/-- A listener whose groups follow the subscriptions. -/
structure Channels where
  listener : Listener
  subscriptions : Subscriptions
  deriving DecidableEq

namespace Channels

/-- Makes what is wanted of a group what its subscribers want. -/
def follow (c : Channels) (now : Instant) (group : Address) : Except GatewayError Unit × Channels :=
  match c.listener.update now group (c.subscriptions.aggregate group) with
  | .ok listener => (.ok (), { c with listener })
  | .error e => (.error e, c)

/-- Subscribes to a channel. The result is the number of the subscription. -/
def subscribe (c : Channels) (now : Instant) (channel : Channel) :
    Except SubscribeFailure (Nat × Channels) :=
  match channel.problem with
  | some problem => .error (.refused problem.error)
  | none =>
    let filter := (c.subscriptions.aggregate channel.group).union channel.filter
    match c.listener.update now channel.group filter, Queue.empty? c.subscriptions.capacity with
    | .error e, _ => .error (.refused e)
    | .ok _, .error f => .error (.fault f)
    | .ok listener, .ok queue =>
      .ok (c.subscriptions.nextId, ⟨listener, c.subscriptions.add channel queue⟩)

/-- Cancels a subscription, unless it has ended. The subscription ends even if the filter that
is left can not be asked for. -/
def unsubscribe (c : Channels) (now : Instant) (id : Nat) : Except GatewayError Unit × Channels :=
  match c.subscriptions.find? id with
  | none => (.ok (), c)
  | some subscription =>
    { c with subscriptions := c.subscriptions.remove id }.follow now subscription.channel.group

/-- Ends subscriptions whose receivers have gone, one after the other. -/
def prune (c : Channels) (now : Instant) (gone : List Subscription) : Channels :=
  gone.foldl (fun c subscription =>
    ({ c with subscriptions := c.subscriptions.remove subscription.id }.follow now
      subscription.channel.group).2) c

/-- Hands a datagram to the subscribers of its channels. The result is the number of those that
took it. -/
def dispatch (c : Channels) (now : Instant) (d : Datagram) : Nat × Channels :=
  let matching := c.subscriptions.active.filter fun s => s.channel.matches? d
  let (taken, gone, subscriptions) := c.subscriptions.offerAll d matching
  (taken, { c with subscriptions }.prune now gone)

end Channels

end MulticastTunnel
