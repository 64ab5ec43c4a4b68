import Tenancy.Feed.Channel

/-!
# Watches

A watch is a chain of relays.  A relay takes events from a source, one at a time, and puts them
into its channel; while the channel is full it waits with one event in hand.  The first relay takes
from the source of all events, each further one from the relay before it, and passes on only the
events that satisfy a test.  A relay ends when its consumer is gone, when its source has ended, or
after the last event that its source has for it; then it lets go of its source, so that the end of
a watch reaches all of its relays.

* `Watch.runStage`: one relay of the chain runs until it waits.
* `Watch.receive`, `Watch.stop`, `Watch.drop`: what the consumer does at the end of the chain.
-/

namespace Tenancy

/-- What a source has for a relay. -/
inductive Taken (α : Type) where
  | event (e : Event α)
  /-- An event after which nothing comes. -/
  | last (e : Event α)
  /-- Nothing yet. -/
  | pending
  | ended

/-- Where the first relay of a watch takes its events from. -/
structure Source (m : Type → Type) (α : Type) where
  take : m (Taken α)
  cancel : m Unit

/-- A relay between its source and its channel. -/
structure Relay (α : Type) where
  channel : Channel α
  /-- The event that waits for room in the channel. -/
  inHand : Option (Event α)
  /-- Nothing is taken after the event in hand. -/
  isLast : Bool

namespace Relay

variable {α : Type}

def ofCapacity (capacity : Nat) : Relay α := ⟨.ofCapacity capacity, none, false⟩

/-- The relay has ended: it was the only producer of its channel. -/
def isDone (r : Relay α) : Bool := r.channel.senders = 0

def finish (r : Relay α) : Relay α := { r with channel := r.channel.dropSender, inHand := none }

/-- Takes an event in hand. -/
def hold (r : Relay α) (e : Event α) (isLast : Bool) : Relay α :=
  { r with inHand := some e, isLast := isLast }

/-- Puts the event in hand into the channel. -/
def deliver (r : Relay α) (e : Event α) : Relay α :=
  let channel := ((Channel.send e).run r.channel).2
  { r with channel := channel, inHand := none }

end Relay

/-- A watch in the monad `m`. -/
inductive Watch (m : Type → Type) (α : Type) where
  | relayed (source : Source m α) (relay : Relay α)
  | filtered (inner : Watch m α) (test : Event α → m Bool) (relay : Relay α)

namespace Watch

variable {m : Type → Type} {α : Type}

/-- The last relay of the chain, whose channel the consumer has. -/
def relay : Watch m α → Relay α
  | .relayed _ r => r
  | .filtered _ _ r => r

def withRelay (w : Watch m α) (r : Relay α) : Watch m α :=
  match w with
  | .relayed source _ => .relayed source r
  | .filtered inner test _ => .filtered inner test r

/-- The number of relays before the last one. -/
def depth : Watch m α → Nat
  | .relayed _ _ => 0
  | .filtered inner _ _ => inner.depth + 1

def receive (w : Watch m α) : Delivery α × Watch m α :=
  let (delivery, channel) := Channel.receive.run w.relay.channel
  (delivery, w.withRelay { w.relay with channel := channel })

def stop (w : Watch m α) : Watch m α :=
  w.withRelay { w.relay with channel := w.relay.channel.stop }

def drop (w : Watch m α) : Watch m α :=
  w.withRelay { w.relay with channel := w.relay.channel.drop }

variable [Monad m]

/-- The next event of the source of the last relay. -/
def take : Watch m α → m (Taken α × Watch m α)
  | .relayed source r => do return (← source.take, .relayed source r)
  | .filtered inner test r =>
    match inner.receive with
    | (.event e, inner) => pure (.event e, .filtered inner test r)
    | (.pending, inner) => pure (.pending, .filtered inner test r)
    | (.closed, inner) => pure (.ended, .filtered inner test r)

/-- The test that an event has to pass. -/
def passes : Watch m α → Event α → m Bool
  | .relayed _ _, _ => pure true
  | .filtered _ test _, e => test e

/-- The last relay ends and lets go of its source. -/
def finish : Watch m α → m (Watch m α)
  | .relayed source r => do
    source.cancel
    return .relayed source r.finish
  | .filtered inner test r => pure (.filtered inner.drop test r.finish)

/-- One step of the last relay: whether it got anywhere, and the watch afterwards. -/
def step (w : Watch m α) : m (Bool × Watch m α) := do
  let r := w.relay
  if r.isDone then return (false, w)
  if !r.channel.isOpen then return (true, ← w.finish)
  match r.inHand with
  | some e =>
    if r.channel.room = 0 then return (false, w)
    let w := w.withRelay (r.deliver e)
    if r.isLast then return (true, ← w.finish)
    return (true, w)
  | none =>
    match ← w.take with
    | (.event e, w) =>
      if ← w.passes e then return (true, w.withRelay (w.relay.hold e false))
      return (true, w)
    | (.last e, w) => return (true, w.withRelay (w.relay.hold e true))
    | (.pending, w) => return (false, w)
    | (.ended, w) => return (true, ← w.finish)

/-- At most `fuel` steps of the last relay, as long as it gets anywhere. -/
def run : Nat → Watch m α → m (Bool × Watch m α)
  | 0, w => pure (false, w)
  | fuel + 1, w => do
    let (moved, w) ← w.step
    if moved then
      let (_, w) ← run fuel w
      return (true, w)
    return (false, w)

/-- A bound on the steps after which the last relay waits: two for each event that its channel or
its source can give it, and two for the event in hand and its end. -/
def patience : Watch m α → Nat
  | .relayed _ r => 2 * r.channel.room + 4
  | .filtered inner _ _ => 2 * inner.relay.channel.queue.length + 4

/-- The relay with `level` relays before it runs until it waits. -/
def runStage (level : Nat) (w : Watch m α) : m (Bool × Watch m α) :=
  if w.depth = level then w.run w.patience
  else
    match w with
    | .relayed source r => pure (false, .relayed source r)
    | .filtered inner test r => do
      let (moved, inner) ← inner.runStage level
      return (moved, .filtered inner test r)

end Watch

end Tenancy
