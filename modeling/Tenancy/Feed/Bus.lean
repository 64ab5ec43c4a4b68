import Tenancy.Feed.Event

/-!
# The change bus

Every change is published on a bus, and every feed opened on it receives each event published from
then on, after some initial events of its own.  The bus holds the newest events only: its capacity
rounded up to a power of two.  A feed that is further behind is told once how many events it has
missed and goes on with the oldest event still held.  Initial events are never missed.

The log of a bus has all events ever published, so that a feed is a position in it; only the newest
ones are ever delivered.
-/

namespace Tenancy

/-- How far a feed has come. -/
structure Cursor (α : Type) where
  /-- The initial events still to be delivered. -/
  initial : List (Event α)
  /-- The number of published events that the feed has passed. -/
  position : Nat

/-- What a feed has for its subscriber. -/
inductive Receipt (α : Type) where
  | event (e : Event α)
  /-- The feed fell behind and missed events. -/
  | lagged (missed : Nat)
  /-- Nothing yet. -/
  | pending
  /-- The bus is gone and nothing is left. -/
  | closed

structure ChangeBus (α : Type) where
  capacity : Nat
  log : Array (Event α)
  /-- The open feeds by number. -/
  feeds : List (Nat × Cursor α)
  /-- The number of feeds ever opened. -/
  opened : Nat
  isClosed : Bool

namespace ChangeBus

variable {α : Type}

/-- A bus without events and feeds; a capacity of zero counts as one. -/
def ofCapacity (capacity : Nat) : ChangeBus α := ⟨max capacity 1, #[], [], 0, false⟩

/-- The capacity of a bus for which none is chosen. -/
def defaultCapacity : Nat := 1024

/-- The number of newest events that the bus holds for feeds that are behind. -/
def held (bus : ChangeBus α) : Nat := bus.capacity.nextPowerOfTwo

/-- The number of events ever published. -/
def published (bus : ChangeBus α) : Nat := bus.log.size

/-- The number of open feeds. -/
def subscriptions (bus : ChangeBus α) : Nat := bus.feeds.length

def publish (e : Event α) (bus : ChangeBus α) : ChangeBus α := { bus with log := bus.log.push e }

/-- The bus goes; its feeds may still receive what is held. -/
def close (bus : ChangeBus α) : ChangeBus α := { bus with isClosed := true }

/-- Opens a feed that begins with `initial` and goes on with what is published from now on; gives
its number. -/
def subscribe (initial : List (Event α)) : StateM (ChangeBus α) Nat := fun bus =>
  (bus.opened,
    { bus with
      feeds := bus.feeds ++ [(bus.opened, ⟨initial, bus.log.size⟩)]
      opened := bus.opened + 1 })

/-- Closes the feed of the given number. -/
def unsubscribe (feed : Nat) (bus : ChangeBus α) : ChangeBus α :=
  { bus with feeds := bus.feeds.filter fun f => f.1 ≠ feed }

/-- What a feed receives next, and how far it has come then. -/
def advance (bus : ChangeBus α) (cursor : Cursor α) : Receipt α × Cursor α :=
  match cursor.initial with
  | e :: rest => (.event e, { cursor with initial := rest })
  | [] =>
    let oldest := bus.log.size - bus.held
    if cursor.position < oldest then
      (.lagged (oldest - cursor.position), { cursor with position := oldest })
    else
      match bus.log[cursor.position]? with
      | some e => (.event e, { cursor with position := cursor.position + 1 })
      | none => (if bus.isClosed then .closed else .pending, cursor)

/-- Takes the next event of the feed of the given number. -/
def receive (feed : Nat) : StateM (ChangeBus α) (Receipt α) := fun bus =>
  match bus.feeds.lookup feed with
  | none => (.closed, bus)
  | some cursor =>
    let (receipt, cursor) := bus.advance cursor
    (receipt,
      { bus with feeds := bus.feeds.map fun f => if f.1 = feed then (feed, cursor) else f })

/-- The form in descriptions of what is built on the bus. -/
def describe (bus : ChangeBus α) : String :=
  "ChangeBus \x7b channel_capacity: " ++ toString bus.capacity ++ ", subscribers: " ++
    toString bus.subscriptions ++ " \x7d"

end ChangeBus

/-- A feed as its subscriber sees it. -/
structure Subscription (m : Type → Type) (α : Type) where
  receive : m (Receipt α)
  cancel : m Unit

/-- Why a feed has no event for its subscriber. -/
def Receipt.problem? {α : Type} : Receipt α → Option String
  | .lagged missed => some ("Change feed lagged, " ++ toString missed ++ " events dropped")
  | .closed => some "Channel closed"
  | _ => none

end Tenancy
