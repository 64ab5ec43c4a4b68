import Tenancy.Access.GrantTable
import Tenancy.Bench.Fault
import Tenancy.Bench.Marker
import Tenancy.Fiber
import Tenancy.Json.Basic
import Tenancy.Store.Memory

/-!
# The state of a bench

A bench has everything that stores can be built on, in one state: a container for each collection,
the table of grants, the ordered failures of both, a board of markers, and records of what
authorizers were asked and what mutations were given.  `Bench` is the monad of what happens on it;
it can be interleaved, and in lockstep each reading of an entry lets others run.
-/

namespace Tenancy

structure World where
  /-- The containers by the index of their collection. -/
  containers : SortedMap Nat MemoryContainer := ∅
  containerFaults : FaultQueue ContainerOp ContainerError := {}
  grants : GrantTable
  grantFaults : FaultQueue GrantOp GrantError := {}
  board : MarkerBoard := {}
  /-- What authorizers were asked. -/
  questions : List AccessRequest := []
  /-- What mutations were given, each with the number of its update. -/
  given : List (Nat × Option Json) := []
  lockstep : Bool := false

/-- What happens on a bench. -/
abbrev Bench := Fiber World

namespace World

/-- The container of a collection. -/
def container (w : World) (collection : Collection) : MemoryContainer :=
  (w.containers.get? collection.index).getD (.ofCapacity 1)

def setContainer (w : World) (collection : Collection) (c : MemoryContainer) : World :=
  { w with containers := w.containers.insert collection.index c }

/-- The world with empty containers for all collections. -/
def fresh (superusers : List String) (capacity : Nat) : World :=
  Collection.all.foldl (fun w collection => w.setContainer collection (.ofCapacity capacity))
    { grants := .empty superusers }

/-- All containers go; their feeds may still receive what is held. -/
def closed (w : World) : World :=
  { w with containers := w.containers.mapValues fun _ c => { c with bus := c.bus.close } }

/-- The number of events ever published on the bench. -/
def published (w : World) : Nat :=
  w.containers.values.foldl (fun n c => n + c.bus.published) 0

end World

namespace Bench

/-- The state of the bench as a cell. -/
def world : Cell Bench World := ⟨Fiber.ofState⟩

def containerCell (collection : Collection) : Cell Bench MemoryContainer :=
  world.part (·.container collection) fun c w => w.setContainer collection c

def containerFaults : Cell Bench (FaultQueue ContainerOp ContainerError) :=
  world.part (·.containerFaults) fun q w => { w with containerFaults := q }

def grantCell : Cell Bench GrantTable := world.part (·.grants) fun t w => { w with grants := t }

def grantFaults : Cell Bench (FaultQueue GrantOp GrantError) :=
  world.part (·.grantFaults) fun q w => { w with grantFaults := q }

def board : Cell Bench MarkerBoard := world.part (·.board) fun b w => { w with board := b }

def questions : Cell Bench (List AccessRequest) :=
  world.part (·.questions) fun l w => { w with questions := l }

/-- Notes what the mutation of the update with a number is given. -/
def observe (number : Nat) (old : Option Json) : Bench Unit :=
  world.access (modify fun w => { w with given := w.given ++ [(number, old)] })

/-- In lockstep, lets others run. -/
def pauseInLockstep : Bench Unit := do
  if (← world.access get).lockstep then Fiber.yield

/-- The container of a collection, without failures. -/
def rawContainer (collection : Collection) : Container Bench :=
  MemoryContainer.container (containerCell collection)

/-- The container of a collection as stores see it. -/
def container (collection : Collection) : Container Bench :=
  (rawContainer collection).withFaults containerFaults pauseInLockstep

/-- The keeper of grants as stores see it. -/
def grants : Grants Bench := (GrantTable.grants grantCell).withFaults grantFaults

/-- The table of grants as an authorizer; failures do not concern it. -/
def authorizer : Authorizer Bench := GrantTable.authorizer grantCell

end Bench

end Tenancy
