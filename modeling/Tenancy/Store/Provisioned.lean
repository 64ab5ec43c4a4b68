import Tenancy.Store.Contract
import Tenancy.Text.Quoted

/-!
# Stores that provision

A side effect makes something that goes with a resource and takes it away again.  The decorator
performs a list of side effects, one after the other, for every resource that a call creates.  If
one of them fails, those that were performed before it are undone in the same order, the resource
is deleted, and the call fails with the error that began it and all errors of the compensation.
When a resource is deleted all side effects are undone, whatever comes of it.
-/

namespace Tenancy

structure SideEffect (m : Type → Type) (α : Type) where
  /-- What the side effect is called in descriptions. -/
  kind : String
  perform : Call → Resource α → ExceptT StoreError m Unit
  /-- Takes away what the side effect makes; it is no error if that is not there. -/
  undo : Call → Resource α → ExceptT StoreError m Unit

namespace Store

variable {m : Type → Type} [Monad m] {α : Type}

/-- The error of a step of a compensation, if it fails. -/
def failure {β : Type} (x : ExceptT StoreError m β) : m (Option StoreError) := do
  match ← x.run with
  | .ok _ => return none
  | .error e => return some e

/-- Undoes side effects in order; gives the errors. -/
def undoAll (call : Call) (resource : Resource α) :
    List (SideEffect m α) → m (List (Option StoreError))
  | [] => pure []
  | effect :: effects => do
    let e ← failure (effect.undo call resource)
    let rest ← undoAll call resource effects
    return e :: rest

/-- Takes back a creation of which the side effects `performed` were performed; gives the error of
the call. -/
def compensate (inner : Store m α) (call : Call) (created : Resource α)
    (performed : List (SideEffect m α)) (trigger : StoreError) : m StoreError := do
  let undone ← undoAll call created performed
  let deleted ← failure (inner.delete call created.name)
  return (StoreError.combine (some trigger :: undone ++ [deleted])).getD
    (.internal ("provisioning of \"" ++ created.name ++ "\" failed"))

/-- Performs the side effects that remain for a created resource, after those in `performed`. -/
def provision (inner : Store m α) (call : Call) (created : Resource α)
    (performed : List (SideEffect m α)) : List (SideEffect m α) → ExceptT StoreError m Unit
  | [] => return
  | effect :: effects => do
    match ← ExceptT.lift (effect.perform call created).run with
    | .ok () => provision inner call created (performed ++ [effect]) effects
    | .error trigger => throw (← ExceptT.lift (compensate inner call created performed trigger))

/-- The store `inner` whose resources come with side effects. -/
def provisioned (inner : Store m α) (effects : List (SideEffect m α)) : Store m α where
  collection := inner.collection
  capabilities := inner.capabilities
  get := inner.get
  list := inner.list
  watch := inner.watch
  create call resource := do
    let created ← inner.create call resource
    provision inner call created [] effects
    return created
  update call name mutate allowCreate := do
    let (resource, created) ← inner.update call name mutate allowCreate
    if created then provision inner call resource [] effects
    return (resource, created)
  delete call name := do
    let (lastKnown, deleted) ← inner.delete call name
    let _ ← ExceptT.lift (undoAll call lastKnown effects)
    return (lastKnown, deleted)

/-- The form in descriptions of a store with side effects. -/
def describeProvisioned (effects : List (SideEffect m α)) : String :=
  "ProvisioningStore \x7b side_effects: [" ++
    ", ".intercalate (effects.map fun effect => quoted effect.kind) ++ "] \x7d"

end Store

end Tenancy
