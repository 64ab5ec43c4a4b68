import Tenancy.Bench.World
import Tenancy.Feed.Watch
import Tenancy.Store.Contract

/-!
# Watching on a bench

A session has the open watches of a client and feeds of the container by name.  Watches run between
the calls of the client: `Session.settle` lets all of them run until each waits.  They do so in
rounds: in each round first the relays next to the container run, in the order in which the watches
were opened, then the relays after them.
-/

namespace Tenancy

/-- A watch that has been opened. -/
structure OpenWatch (α : Type) where
  id : String
  watch : Watch Bench (Resource α)
  /-- The client has let go of the watch; its relays have yet to end. -/
  isDropped : Bool := false

/-- How receiving came to its end. -/
inductive ReceiveEnd where
  | max
  | pending
  | closed

structure Session (α : Type) where
  watches : List (OpenWatch α) := []
  feeds : List (String × Subscription Bench Entry) := []

namespace Session

variable {α : Type}

/-- Runs the relay with `level` relays before it, of each watch. -/
def runLevel (level : Nat) : List (OpenWatch α) → Bench (Bool × List (OpenWatch α))
  | [] => pure (false, [])
  | w :: rest => do
    let (moved, watch) ← w.watch.runStage level
    let (restMoved, rest) ← runLevel level rest
    return (moved || restMoved, { w with watch := watch } :: rest)

/-- The number of relays of the longest watch. -/
def levels (watches : List (OpenWatch α)) : Nat :=
  watches.foldl (fun n w => max n (w.watch.depth + 1)) 0

/-- One round: the relays of all levels from `level` on, `count` of them. -/
def round : (count level : Nat) → List (OpenWatch α) → Bench (Bool × List (OpenWatch α))
  | 0, _, watches => pure (false, watches)
  | count + 1, level, watches => do
    let (moved, watches) ← runLevel level watches
    let (restMoved, watches) ← round count (level + 1) watches
    return (moved || restMoved, watches)

/-- Rounds until nothing moves, at most `fuel` of them. -/
def rounds : (fuel : Nat) → List (OpenWatch α) → Bench (List (OpenWatch α))
  | 0, watches => pure watches
  | fuel + 1, watches => do
    let (moved, watches) ← round (levels watches) 0 watches
    if moved then rounds fuel watches else return watches

/-- A bound on the rounds in which something can move: each moves an event of a watch by one relay
or ends a relay, and a watch has at most twice as many events as were ever published. -/
def patience (s : Session α) (w : World) : Nat :=
  s.watches.foldl (fun n o => n + (o.watch.depth + 1) * (4 * w.published + 8)) 1

/-- Lets all watches run until each waits; those that were dropped and have ended are forgotten. -/
def settle (s : Session α) : Bench (Session α) := do
  let w ← Bench.world.access get
  let watches ← rounds (s.patience w) s.watches
  return { s with watches := watches.filter fun o => !(o.isDropped && o.watch.relay.isDone) }

/-- The watch of a name. -/
def find? (s : Session α) (id : String) : Option (OpenWatch α) :=
  s.watches.find? fun o => o.id = id && !o.isDropped

/-- Changes the watch of a name. -/
def change (s : Session α) (id : String) (f : OpenWatch α → OpenWatch α) : Session α :=
  { s with watches := s.watches.map fun o => if o.id = id && !o.isDropped then f o else o }

/-- Lets go of the watch of a name. -/
def drop (s : Session α) (id : String) : Session α :=
  s.change id fun o => { o with watch := o.watch.drop, isDropped := true }

/-- Opens a watch under a name; one of that name before is dropped. -/
def openWatch (s : Session α) (id : String) (watch : Watch Bench (Resource α)) : Session α :=
  let s := s.drop id
  { s with watches := s.watches ++ [⟨id, watch, false⟩] }

def stop (s : Session α) (id : String) : Session α :=
  s.change id fun o => { o with watch := o.watch.stop }

/-- Takes one event of a watch from its buffer. -/
def take (s : Session α) (id : String) : Delivery (Resource α) × Session α :=
  match s.find? id with
  | none => (.closed, s)
  | some o =>
    let (delivery, watch) := o.watch.receive
    (delivery, s.change id fun o => { o with watch := watch })

/-- Receives at most `max` events of a watch; when there is none, all watches run first. -/
def receive (id : String) : (max : Nat) → Session α →
    Bench (List (Event (Resource α)) × ReceiveEnd × Session α)
  | 0, s => pure ([], .max, s)
  | max + 1, s => do
    let (delivery, s) ← match s.take id with
      | (.pending, s) => do pure ((← s.settle).take id)
      | taken => pure taken
    match delivery with
    | .event e => do
      let (rest, ending, s) ← receive id max s
      return (e :: rest, ending, s)
    | .pending => return ([], .pending, s)
    | .closed => return ([], .closed, s)

/-- Opens a feed of the container under a name; one of that name before is closed. -/
def openFeed (s : Session α) (id : String) (feed : Subscription Bench Entry) :
    Bench (Session α) := do
  if let some old := s.feeds.lookup id then old.cancel
  return { s with feeds := s.feeds.filter (fun f => f.1 ≠ id) ++ [(id, feed)] }

/-- Closes the feed of a name; gives whether there was one. -/
def closeFeed (s : Session α) (id : String) : Bench (Bool × Session α) := do
  match s.feeds.lookup id with
  | none => return (false, s)
  | some feed =>
    feed.cancel
    return (true, { s with feeds := s.feeds.filter fun f => f.1 ≠ id })

/-- Everything that a feed has, at most `fuel` times: up to where it has nothing yet, or including
the end of the bus.  With `untilProblem` it also ends after a lag. -/
def drain (feed : Subscription Bench Entry) (untilProblem : Bool) : (fuel : Nat) →
    Bench (List (Receipt Entry))
  | 0 => pure []
  | fuel + 1 => do
    match ← feed.receive with
    | .pending => return []
    | .closed => return [.closed]
    | .lagged missed =>
      if untilProblem then return [.lagged missed]
      return .lagged missed :: (← drain feed untilProblem fuel)
    | .event e => return .event e :: (← drain feed untilProblem fuel)

/-- Everything that the feed of a name has. -/
def receiveFeed (s : Session α) (id : String) (untilProblem : Bool) :
    Bench (List (Receipt Entry)) := do
  match s.feeds.lookup id with
  | none => return [.closed]
  | some feed =>
    let w ← Bench.world.access get
    drain feed untilProblem (2 * w.published + 2)

end Session

end Tenancy
