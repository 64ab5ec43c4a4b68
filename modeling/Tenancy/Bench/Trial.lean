import Tenancy.Bench.Labels
import Tenancy.Bench.Records
import Tenancy.Bench.Session
import Tenancy.Billing.Task
import Tenancy.Json.Format

/-!
# Trials

A trial is a run of calls on a bench, with the labels of its transcript.  A client of a trial calls
one store and has a session of watches of its own; a billing trial has a record system and a
scavenger.
-/

namespace Tenancy

structure Trial where
  world : World
  labels : Labels := {}

/-- What happens in a trial. -/
abbrev OnTrial := StateM Trial

namespace Trial

/-- Does something on the bench. -/
def perform {α : Type} (x : Bench α) : OnTrial α := fun t =>
  let (a, world) := x.run t.world
  (a, { t with world := world })

/-- Runs two calls in turn. -/
def race {α β : Type} (x : Bench α) (y : Bench β) : OnTrial (α × β) := fun t =>
  let (result, world) := (x.race y).run t.world
  (result, { t with world := world })

/-- Writes something down. -/
def write {α : Type} (x : Transcript α) : OnTrial α := fun t =>
  let (a, labels) := x.run t.labels
  (a, { t with labels := labels })

def getWorld : OnTrial World := return (← get).world

def changeWorld (f : World → World) : OnTrial Unit := modify fun t => { t with world := f t.world }

/-- The circumstances of a new call. -/
def newCall (actor : Actor) : OnTrial Call := do
  let n ← write Labels.nextCall
  return ⟨actor, ← write Labels.now, "entry-" ++ toString n, Labels.draw n⟩

/-- The container of a collection has stored an entry of this name since it had published so many
events. -/
def wasStored (w : World) (collection : Collection) (since : Nat) (name : String) : Bool :=
  ((w.container collection).bus.log.toList.drop since).any fun
    | .added e => e.name = name
    | _ => false

/-- The stem of the name that is generated for a resource, if one is. -/
def stemOf? {α : Type} (r : Resource α) : Option String :=
  if r.name.isEmpty then r.metadata.generateName else none

/-- A call that creates a resource.  A name that it generates gets a label if it is stored; else the
stem is given back. -/
def creating {α β : Type} (collection : Collection) (call : Call) (r : Resource α)
    (x : Bench β) : OnTrial (β × Option String) := do
  let since := ((← getWorld).container collection).bus.published
  let result ← perform x
  match stemOf? r with
  | none => return (result, none)
  | some stem =>
    if wasStored (← getWorld) collection since (generateName stem call.draw) then
      write (Labels.addDraw call.draw)
      return (result, none)
    return (result, some stem)

/-- What the mutation of the update with a number was given. -/
def given (number : Nat) : OnTrial (Option Json) := do
  return ((← getWorld).given.find? fun g => g.1 = number).map fun g => g.2.getD .null

def forgetGiven : OnTrial Unit := changeWorld fun w => { w with given := [] }

/-- Takes the record of what authorizers were asked. -/
def takeQuestions : OnTrial (List AccessRequest) := fun t =>
  (t.world.questions, { t with world := { t.world with questions := [] } })

/-- Takes the log of the markers. -/
def takeLog : OnTrial (List String) := fun t =>
  let board := { t.world.board with log := [] }
  (t.world.board.log, { t with world := { t.world with board := board } })

end Trial

/-- A store that is tried and the watches that were opened on it. -/
structure Client (α : Type) where
  format : Json.Format α
  collection : Collection
  session : Session α := {}

/-- What happens in a trial with a client. -/
abbrev OnClient (α : Type) := StateT (Client α) OnTrial

namespace Client

/-- Does something with the session of the client. -/
def inSession {α β : Type} (x : Session α → Bench (β × Session α)) : OnClient α β := fun c => do
  let (b, session) ← Trial.perform (x c.session)
  return (b, { c with session := session })

def changeSession {α : Type} (f : Session α → Session α) : OnClient α Unit :=
  modify fun c => { c with session := f c.session }

/-- Lets all watches of the client run. -/
def settle {α : Type} : OnClient α Unit := inSession fun s => do return ((), ← s.settle)

/-- Receives at most `max` events of a watch. -/
def receive {α : Type} (id : String) (max : Nat) :
    OnClient α (List (Event (Resource α)) × ReceiveEnd) :=
  inSession fun s => do
    let (events, ending, s) ← s.receive id max
    return ((events, ending), s)

end Client

/-- A trial of billing: a record system, whose searches may fail, and a scavenger. -/
structure BillingTrial where
  table : RecordTable := {}
  searchFails : Bool := false
  task : Option ScavengerTask := none
  labels : Labels := {}

/-- What happens in a trial of billing. -/
abbrev OnBilling := StateM BillingTrial

namespace BillingTrial

/-- Writes something down. -/
def write {α : Type} (x : Transcript α) : OnBilling α := fun t =>
  let (a, labels) := x.run t.labels
  (a, { t with labels := labels })

def records : Cell OnBilling RecordTable :=
  Cell.whole.part (·.table) fun table t => { t with table := table }

def clock : OnBilling Time := write Labels.now

/-- The record system itself. -/
def plain : RecordSystem OnBilling := RecordTable.system records clock

/-- The record system whose searches may fail. -/
def system : RecordSystem OnBilling := plain.withSearchFault do return (← get).searchFails

/-- A sweep now. -/
def sweep (config : ScavengerConfig) : ExceptT SweepError OnBilling SweepReport := do
  Scavenger.sweepAt system config (← ExceptT.lift clock)

/-- Starts the scavenger. -/
def spawn (config : ScavengerConfig) : OnBilling Unit := do
  let task ← ScavengerTask.start (sweep config) config
  modify fun t => { t with task := some task }

/-- Lets seconds pass for the scavenger. -/
def advance (config : ScavengerConfig) (seconds : Nat) : OnBilling Unit := do
  if let some task := (← get).task then
    let task ← task.advance (sweep config) config seconds
    modify fun t => { t with task := some task }

/-- Tells the scavenger to stop. -/
def stop : OnBilling Unit := modify fun t => { t with task := t.task.map (·.stop) }

/-- Somebody listens to what the scavenger is told. -/
def isRunning (t : BillingTrial) : Bool := t.task.any fun task => task.status = .running

end BillingTrial

end Tenancy
