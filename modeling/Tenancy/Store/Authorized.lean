import Tenancy.Store.Contract

/-!
# Stores that ask an authorizer

The decorator asks an authorizer before it lets a call through: once for the verb and the name, or
for the collection where there is no single name.  What a list or a watch returns is checked again,
item by item: the actor sees only what it may get, and what it may not see is left out without a
trace.

The verbs are those that the inner store has declared; for any other the call fails before anybody
is asked.
-/

namespace Tenancy

namespace Store

variable {m : Type → Type} [Monad m] {α : Type}

/-- Asks whether the actor of a call may do the verb, to the object of a name if there is one. -/
def authorize (authorizer : Authorizer m) (collection : Collection) (call : Call) (verb : Verb)
    (name : Option String) : ExceptT StoreError m Unit := do
  let request : AccessRequest := match name with
    | some name => .forName call.actor verb collection name
    | none => .forCollection call.actor verb collection
  match ← ExceptT.lift (authorizer request).run with
  | .ok .allow => return
  | .ok (.deny reason) => throw (.forbidden reason)
  | .error e => throw (.internal ("authorizer failed: " ++ e.message))

/-- The items that the actor may see. -/
def visible (authorizer : Authorizer m) (actor : Actor) (collection : Collection) :
    List (Resource α) → m (List (Resource α))
  | [] => pure []
  | item :: items => do
    let sees ← authorizer.maySee actor collection item.name
    let rest ← visible authorizer actor collection items
    return if sees then item :: rest else rest

/-- The actor may see what an event is about; events out of band are for everyone. -/
def maySeeEvent (authorizer : Authorizer m) (actor : Actor) (collection : Collection)
    (e : Event (Resource α)) : m Bool :=
  match e.object? with
  | some r => authorizer.maySee actor collection r.name
  | none => pure true

/-- The store `inner` behind an authorizer; its watches buffer `watchBuffer` events. -/
def authorized (inner : Store m α) (authorizer : Authorizer m)
    (watchBuffer : Nat := Channel.defaultCapacity) : Store m α where
  collection := inner.collection
  capabilities := inner.capabilities
  get call name := do
    inner.capabilities.require .get
    authorize authorizer inner.collection call .get (some name)
    inner.get call name
  list call options := do
    inner.capabilities.require .list
    authorize authorizer inner.collection call .list none
    let page ← inner.list call options
    let items ← ExceptT.lift (visible authorizer call.actor inner.collection page.items)
    return { page with items := items }
  watch call options := do
    inner.capabilities.require .watch
    authorize authorizer inner.collection call .watch none
    let watch ← inner.watch call options
    return .filtered watch (maySeeEvent authorizer call.actor inner.collection)
      (.ofCapacity watchBuffer)
  create call resource := do
    inner.capabilities.require .create
    authorize authorizer inner.collection call .create (some resource.name)
    inner.create call resource
  update call name mutate allowCreate := do
    inner.capabilities.require .update
    authorize authorizer inner.collection call .update (some name)
    inner.update call name mutate allowCreate
  delete call name := do
    inner.capabilities.require .delete
    authorize authorizer inner.collection call .delete (some name)
    inner.delete call name

/-- The form in descriptions of a store behind an authorizer. -/
def describeAuthorized (s : Store m α) : String :=
  "AuthorizingStore \x7b resource: " ++ s.collection.kind ++ ", capabilities: " ++
    s.capabilities.describe ++ " \x7d"

end Store

end Tenancy
