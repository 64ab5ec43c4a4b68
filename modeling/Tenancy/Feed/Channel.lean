import Tenancy.Feed.Event

/-!
# Channels

A bounded queue of events between producers and one consumer.  A producer waits while the queue is
full.  The consumer may stop: then nothing more is sent, and what is queued can still be received.
-/

namespace Tenancy

structure Channel (α : Type) where
  capacity : Nat
  queue : List (Event α)
  /-- The number of producers. -/
  senders : Nat
  /-- The consumer still takes new events. -/
  isOpen : Bool

/-- What became of an event that was sent. -/
inductive Sending where
  | sent
  /-- The queue is full, the producer has to wait. -/
  | full
  /-- The consumer is gone. -/
  | refused
  deriving DecidableEq

/-- What the consumer receives. -/
inductive Delivery (α : Type) where
  | event (e : Event α)
  /-- Nothing yet. -/
  | pending
  /-- Nothing is left and nothing will come. -/
  | closed

namespace Channel

variable {α : Type}

/-- The capacity of a channel for which none is chosen. -/
def defaultCapacity : Nat := 100

/-- An empty channel with one producer; a capacity of zero counts as one. -/
def ofCapacity (capacity : Nat) : Channel α := ⟨max capacity 1, [], 1, true⟩

/-- The number of events for which there is room. -/
def room (c : Channel α) : Nat := c.capacity - c.queue.length

def send (e : Event α) : StateM (Channel α) Sending := fun c =>
  if !c.isOpen then (.refused, c)
  else if c.room = 0 then (.full, c)
  else (.sent, { c with queue := c.queue ++ [e] })

/-- Another producer joins. -/
def addSender (c : Channel α) : Channel α := { c with senders := c.senders + 1 }

/-- A producer leaves. -/
def dropSender (c : Channel α) : Channel α := { c with senders := c.senders - 1 }

/-- The consumer takes nothing new. -/
def stop (c : Channel α) : Channel α := { c with isOpen := false }

/-- The consumer leaves, with what is queued. -/
def drop (c : Channel α) : Channel α := { c with isOpen := false, queue := [] }

def receive : StateM (Channel α) (Delivery α) := fun c =>
  match c.queue with
  | e :: rest => (.event e, { c with queue := rest })
  | [] => (if c.senders = 0 || !c.isOpen then .closed else .pending, c)

end Channel

end Tenancy
