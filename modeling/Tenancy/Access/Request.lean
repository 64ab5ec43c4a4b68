import Tenancy.Access.Permission

/-!
# Access requests

An access request asks whether an actor may do one verb to one object, or to a whole collection.  An
authorizer answers it by a decision, or fails without one; a failure is never a denial.
-/

namespace Tenancy

/-- Who makes a request. -/
structure Actor where
  name : String
  groups : List String := []
  deriving DecidableEq

def Actor.isIn (actor : Actor) (group : String) : Bool := actor.groups.contains group

/-- What a request is about: a collection, or one object in it. -/
structure Coordinates where
  collection : Collection
  name : Option String := none
  deriving DecidableEq

/-- The form in messages. -/
def Coordinates.text (c : Coordinates) : String :=
  match c.name with
  | some name => c.collection.text ++ " \"" ++ name ++ "\""
  | none => c.collection.text

structure AccessRequest where
  actor : Actor
  verb : Verb
  coordinates : Coordinates
  deriving DecidableEq

namespace AccessRequest

/-- The request for a whole collection. -/
def forCollection (actor : Actor) (verb : Verb) (collection : Collection) : AccessRequest :=
  ⟨actor, verb, ⟨collection, none⟩⟩

/-- The request for the object of the given name; the empty name stands for the collection. -/
def forName (actor : Actor) (verb : Verb) (collection : Collection) (name : String) :
    AccessRequest :=
  ⟨actor, verb, ⟨collection, if name.isEmpty then none else some name⟩⟩

/-- The permission that answers the request. -/
def required (q : AccessRequest) : Permission :=
  ⟨q.coordinates.collection, q.verb, q.coordinates.name⟩

end AccessRequest

inductive Decision where
  | allow
  | deny (reason : String)
  deriving DecidableEq

def Decision.isAllowed : Decision → Bool
  | .allow => true
  | .deny _ => false

/-- Why an authorizer came to no decision. -/
inductive AuthorizerError where
  | unavailable (reason : String)
  | invalidRequest (reason : String)
  deriving DecidableEq

def AuthorizerError.message : AuthorizerError → String
  | .unavailable reason => "Authorizer unavailable: " ++ reason
  | .invalidRequest reason => "Invalid authorization request: " ++ reason

/-- What decides access requests. -/
abbrev Authorizer (m : Type → Type) := AccessRequest → ExceptT AuthorizerError m Decision

/-- The authorizer that allows everything. -/
def Authorizer.allowAll {m : Type → Type} [Monad m] : Authorizer m := fun _ => pure .allow

/-- The actor may see the object of the given name.  An authorizer that fails hides the object. -/
def Authorizer.maySee {m : Type → Type} [Monad m] (authorizer : Authorizer m) (actor : Actor)
    (collection : Collection) (name : String) : m Bool := do
  match ← (authorizer (.forName actor .get collection name)).run with
  | .ok decision => pure decision.isAllowed
  | .error _ => pure false

end Tenancy
