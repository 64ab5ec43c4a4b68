import Tenancy.Access.Request
import Tenancy.Feed.Watch
import Tenancy.Store.Capabilities
import Tenancy.Store.Container

/-!
# The store contract

A store serves one collection of resources.  Plain stores, stores that ask an authorizer and stores
that provision what goes with a resource all have this one form, so they are built by wrapping.  A
store declares the verbs that it supports.

A call comes with all that it may need from outside: who makes it, the time, and what is drawn for a
new entry.
-/

namespace Tenancy

/-- The circumstances of a call. -/
structure Call where
  actor : Actor
  time : Time
  /-- The identifier of the entry that the call may create. -/
  uid : String
  /-- The characters drawn for a name that the call may generate. -/
  draw : String

def Call.birth (call : Call) : Birth := ⟨call.uid, call.time⟩

/-- What an update makes of a payload.  It is given none if there is no such resource and the update
may create it. -/
abbrev Mutation (m : Type → Type) (α : Type) := Option α → ExceptT StoreError m α

/-- A resource after a call, and whether the call created or removed it. -/
abbrev Outcome (α : Type) := Resource α × Bool

structure Store (m : Type → Type) (α : Type) where
  collection : Collection
  capabilities : Capabilities
  get : Call → (name : String) → ExceptT StoreError m (Resource α)
  list : Call → ListOptions → ExceptT StoreError m (Page (Resource α))
  watch : Call → ListOptions → ExceptT StoreError m (Watch m (Resource α))
  create : Call → Resource α → ExceptT StoreError m (Resource α)
  /-- The updated resource, and whether it was created. -/
  update : Call → (name : String) → Mutation m α → (allowCreate : Bool) →
    ExceptT StoreError m (Outcome α)
  /-- The last state of the resource, and whether it was removed. -/
  delete : Call → (name : String) → ExceptT StoreError m (Outcome α)

/-- The store that supports nothing, whatever it declares. -/
def Store.unsupported {m : Type → Type} [Monad m] {α : Type} (collection : Collection)
    (capabilities : Capabilities) : Store m α where
  collection := collection
  capabilities := capabilities
  get _ _ := throw (.methodNotSupported .get)
  list _ _ := throw (.methodNotSupported .list)
  watch _ _ := throw (.methodNotSupported .watch)
  create _ _ := throw (.methodNotSupported .create)
  update _ _ _ _ := throw (.methodNotSupported .update)
  delete _ _ := throw (.methodNotSupported .delete)

end Tenancy
