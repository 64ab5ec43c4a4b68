import Tenancy.Cell
import Tenancy.SortedMap
import Tenancy.Store.Config
import Tenancy.Store.Container
import Tenancy.Store.Token

/-!
# Containers in memory

Entries by name, a revision that counts the writes, and a change bus.  Every write advances the
revision by one, stamps the entry with it and publishes the entry in the same step, so a feed that
is opened with the entries of the moment as its initial events misses nothing and sees nothing
twice.
-/

namespace Tenancy

structure MemoryContainer where
  entries : SortedMap String Entry
  revision : Nat
  bus : ChangeBus Entry

namespace MemoryContainer

/-- The container without entries, whose bus has the given capacity. -/
def ofCapacity (capacity : Nat) : MemoryContainer := ⟨∅, 0, .ofCapacity capacity⟩

def ofConfig (config : StoreConfig) : MemoryContainer := ofCapacity config.changeFeedCapacity

def size (c : MemoryContainer) : Nat := c.entries.size

/-- The version that the next write stamps. -/
def nextVersion (c : MemoryContainer) : String := toString (c.revision + 1)

/-- The container after a write: the next revision, the new entries, and the event published. -/
def commit (c : MemoryContainer) (entries : SortedMap String Entry) (e : Event Entry) :
    MemoryContainer :=
  ⟨entries, c.revision + 1, c.bus.publish e⟩

abbrev Op (α : Type) := ExceptT ContainerError (StateM MemoryContainer) α

def get (name : String) : Op Entry := do
  match (← getThe MemoryContainer).entries.get? name with
  | some entry => return entry
  | none => throw (.notFound name)

def create (birth : Birth) (name : String) (bytes : Bytes) : Op Entry := do
  let c ← getThe MemoryContainer
  if c.entries.contains name then throw (.alreadyExists name)
  let entry : Entry := ⟨name, bytes, birth.uid, birth.time, c.nextVersion⟩
  set (c.commit (c.entries.insert name entry) (.added entry))
  return entry

def patch (name : String) (bytes : Bytes) : Op Entry := do
  let c ← getThe MemoryContainer
  match c.entries.get? name with
  | none => throw (.notFound name)
  | some old =>
    let entry := { old with bytes := bytes, version := c.nextVersion }
    set (c.commit (c.entries.insert name entry) (.modified entry))
    return entry

def delete (name : String) : Op Entry := do
  let c ← getThe MemoryContainer
  match c.entries.get? name with
  | none => throw (.notFound name)
  | some old =>
    let entry := { old with version := c.nextVersion }
    set (c.commit (c.entries.erase name) (.deleted entry))
    return entry

/-- The page of at most `limit` of the given entries; it has a token if entries remain. -/
def page (version : String) (limit : Option Nat) (entries : List Entry) : Page Entry :=
  match limit with
  | some (limit + 1) =>
    let items := entries.take (limit + 1)
    let token :=
      if (entries.drop (limit + 1)).isEmpty then none
      else items.getLast?.map fun last => PageToken.encode last.name
    ⟨items, token, version⟩
  | _ => ⟨entries, none, version⟩

def list (options : ListOptions) : Op (Page Entry) := do
  let start ← match options.continueToken with
    | none => pure none
    | some token =>
      match PageToken.decode token with
      | .ok name => pure (some name)
      | .error fault => throw (.invalid fault.message)
  let c ← getThe MemoryContainer
  return page (toString c.revision) options.limit (c.entries.after start)

/-- Opens a feed of the container's changes and gives its number. -/
def openFeed (options : ListOptions) : StateM MemoryContainer Nat := fun c =>
  let initial := if options.sendInitialEvents then c.entries.values.map .added else []
  let (feed, bus) := (ChangeBus.subscribe initial).run c.bus
  (feed, { c with bus := bus })

def receive (feed : Nat) : StateM MemoryContainer (Receipt Entry) := fun c =>
  let (receipt, bus) := (ChangeBus.receive feed).run c.bus
  (receipt, { c with bus := bus })

def closeFeed (feed : Nat) : StateM MemoryContainer Unit :=
  modify fun c => { c with bus := c.bus.unsubscribe feed }

/-- Publishes how far the container has come. -/
def bookmark (c : MemoryContainer) : MemoryContainer :=
  { c with bus := c.bus.publish (.bookmark (toString c.revision)) }

/-- A feed of the container as its subscriber sees it. -/
def subscription {m : Type → Type} (cell : Cell m MemoryContainer) (feed : Nat) :
    Subscription m Entry where
  receive := cell.access (receive feed)
  cancel := cell.access (closeFeed feed)

/-- The container of a cell as stores see it. -/
def container {m : Type → Type} [Monad m] (cell : Cell m MemoryContainer) : Container m where
  get name := cell.access (get name)
  create birth name bytes := cell.access (create birth name bytes)
  patch name bytes := cell.access (patch name bytes)
  delete name := cell.access (delete name)
  list options := cell.access (list options)
  watch options := ExceptT.lift do return subscription cell (← cell.access (openFeed options))

def describe (c : MemoryContainer) : String :=
  "MemoryBlobContainer \x7b bus: " ++ c.bus.describe ++ " \x7d"

end MemoryContainer

end Tenancy
