import Tenancy.Time.Basic
import Tenancy.Uid

/-!
# Resources

A resource is a payload with metadata that identify it.  Callers choose a name, or a stem to
generate one from; all other metadata come from the store.
-/

namespace Tenancy

structure ObjectMeta where
  /-- The name, by which alone the resource is addressed. -/
  name : String
  /-- The stem of the name to be generated if `name` is empty. -/
  generateName : Option String := none
  uid : Option Uid := none
  creationTime : Option Time := none
  /-- A token that every write changes. -/
  version : Option String := none
  deriving DecidableEq

structure Resource (α : Type) where
  metadata : ObjectMeta
  payload : α
  deriving DecidableEq

namespace Resource

variable {α : Type}

def name (r : Resource α) : String := r.metadata.name

/-- The resource of a given name, not yet stored. -/
def named (name : String) (payload : α) : Resource α := ⟨{ name }, payload⟩

/-- The resource whose name is to be generated. -/
def generated (stem : String) (payload : α) : Resource α :=
  ⟨{ name := "", generateName := some stem }, payload⟩

end Resource

/-- What a list or a watch is asked for. -/
structure ListOptions where
  /-- The largest number of items on a page; zero counts as no limit. -/
  limit : Option Nat := none
  /-- The token that a page before ended with. -/
  continueToken : Option String := none
  /-- A watch begins with an event for each object that there is. -/
  sendInitialEvents : Bool := false
  deriving DecidableEq

/-- A page of a collection. -/
structure Page (ι : Type) where
  /-- The items in the order of their names. -/
  items : List ι
  /-- The token of the next page, if there is one. -/
  continueToken : Option String
  /-- The version of the collection at the time of the reading. -/
  version : String
  deriving DecidableEq

/-- The identifier space of resources. -/
def Uid.resources : Uid := ⟨0x6f1c2d4e8a3b4c5d9e7f0a1b2c3d4e5f⟩

/-- The identifier of a resource whose entry the container knows by `entryUid`. -/
def Uid.ofEntry (entryUid : String) : Uid := .named .resources (utf8 entryUid)

end Tenancy
