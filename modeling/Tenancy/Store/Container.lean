import Tenancy.Feed.Bus
import Tenancy.Store.Error
import Tenancy.Store.Resource

/-!
# Containers

A container keeps entries under names: bytes that it does not look into, with an identifier, a time
of creation and a version that it assigns.  `Container` is all that a store needs of one.
-/

namespace Tenancy

structure Entry where
  name : String
  bytes : Bytes
  /-- The identifier that the container has given to the entry. -/
  uid : String
  creationTime : Time
  version : String
  deriving DecidableEq

inductive ContainerError where
  | notFound (name : String)
  | alreadyExists (name : String)
  | invalid (reason : String)
  | unavailable (reason : String)
  deriving DecidableEq

namespace ContainerError

def message : ContainerError → String
  | .notFound name => "Entry not found: " ++ name
  | .alreadyExists name => "Entry already exists: " ++ name
  | .invalid reason => "Invalid request: " ++ reason
  | .unavailable reason => "Container unavailable: " ++ reason

/-- The error of a store over the container. -/
def toStoreError (collection : Collection) : ContainerError → StoreError
  | .notFound name => .notFound collection name
  | .alreadyExists name => .alreadyExists collection name
  | .invalid reason => .validationFailed reason
  | .unavailable reason => .internal reason

end ContainerError

/-- What an entry gets at its creation and keeps. -/
structure Birth where
  uid : String
  time : Time

structure Container (m : Type → Type) where
  get : (name : String) → ExceptT ContainerError m Entry
  create : Birth → (name : String) → Bytes → ExceptT ContainerError m Entry
  /-- Replaces the bytes of an entry and nothing else. -/
  patch : (name : String) → Bytes → ExceptT ContainerError m Entry
  /-- Removes an entry and gives its last state. -/
  delete : (name : String) → ExceptT ContainerError m Entry
  list : ListOptions → ExceptT ContainerError m (Page Entry)
  watch : ListOptions → ExceptT ContainerError m (Subscription m Entry)

end Tenancy
