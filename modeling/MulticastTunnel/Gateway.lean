import MulticastTunnel.Subscription.Table
import MulticastTunnel.Tunnel.Receive
import MulticastTunnel.Tunnel.Firing

/-!
# The gateway

What an application holds: a tunnel whose sink is emptied into the subscriptions. Groups can be
joined on their own, but only subscribers receive datagrams.
-/

namespace MulticastTunnel

/-- A tunnel and the subscriptions to what it receives. -/
structure Gateway where
  tunnel : Tunnel
  subscriptions : Subscriptions
  /-- The sink is still being emptied. -/
  dispatching : Bool

namespace Gateway

/-- A gateway whose session is about to begin. -/
def start (config : Config) (random : Randomness) (now : Instant) : Except String Gateway :=
  (Tunnel.start config random now).map fun tunnel =>
    ⟨tunnel, .empty config.queueCapacity, true⟩

/-- The listener with the subscriptions that its groups follow. -/
def channels (g : Gateway) : Channels := ⟨g.tunnel.listener, g.subscriptions⟩

/-- Takes over what subscriptions and listener have become. -/
def withChannels (g : Gateway) (c : Channels) : Gateway :=
  { g with
    tunnel := { g.tunnel with listener := c.listener }
    subscriptions := c.subscriptions }

/-- Hands the datagrams waiting in the sink to the subscribers. -/
def dispatchAll (g : Gateway) (now : Instant) : Gateway :=
  if g.dispatching then
    let waiting := g.tunnel.sink.waiting
    let emptied := { g with
      tunnel := { g.tunnel with sink := { g.tunnel.sink with waiting := [] } } }
    waiting.foldl (fun g d => g.withChannels (g.channels.dispatch now d).2) emptied
  else g

/-- Subscribes to a channel. -/
def subscribe (g : Gateway) (now : Instant) (channel : Channel) :
    Except SubscribeFailure (Nat × Gateway) :=
  (g.channels.subscribe now channel).map fun (id, c) => (id, g.withChannels c)

/-- Cancels a subscription. -/
def unsubscribe (g : Gateway) (now : Instant) (id : Nat) : Except GatewayError Unit × Gateway :=
  let (result, c) := g.channels.unsubscribe now id
  (result, g.withChannels c)

/-- The receiver of a subscription looks for a datagram. -/
def receive (g : Gateway) (id : Nat) : Option (Received Datagram) × Gateway :=
  let (found, subscriptions) := g.subscriptions.receive id
  (found, { g with subscriptions })

/-- The receiver of a subscription goes. -/
def abandon (g : Gateway) (id : Nat) : Gateway :=
  { g with subscriptions := g.subscriptions.abandon id }

/-- Ends the tunnel and all work in the background. Subscriptions stay, but receive nothing. -/
def close (g : Gateway) (net : Transmit) : Gateway :=
  let t := g.tunnel.close net
  { g with
    tunnel := { t with
      sessionTimers := t.sessionTimers.shutdown
      listener := { t.listener with timers := t.listener.timers.shutdown }
      sink := t.sink.abandon }
    dispatching := false }

end Gateway

end MulticastTunnel
