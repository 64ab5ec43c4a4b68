import Tenancy.Access.Grant
import Tenancy.Cell

/-!
# The table of grants

Roles and bindings by name, and the groups whose members may do everything.  The table keeps grants
and decides requests by them: an actor may do what some role bound to the actor, or to one of the
actor's groups, covers.  A binding to a role that is not there gives nothing until a role of that
name is created.
-/

namespace Tenancy

structure GrantTable where
  roles : SortedMap String Role
  bindings : SortedMap String RoleBinding
  /-- The groups whose members are allowed everything. -/
  superusers : List String

namespace GrantTable

/-- The table without grants. -/
def empty (superusers : List String) : GrantTable := ⟨∅, ∅, superusers⟩

def createRole (role : Role) : ExceptT GrantError (StateM GrantTable) Role := do
  if (← get).roles.contains role.name then throw (.alreadyExists Role.kind role.name)
  modify fun t => { t with roles := t.roles.insert role.name role }
  return role

def getRole (name : String) : ExceptT GrantError (StateM GrantTable) Role := do
  match (← get).roles.get? name with
  | some role => return role
  | none => throw (.notFound Role.kind name)

def deleteRole (name : String) : ExceptT GrantError (StateM GrantTable) Unit := do
  if !(← get).roles.contains name then throw (.notFound Role.kind name)
  modify fun t => { t with roles := t.roles.erase name }

def createBinding (binding : RoleBinding) : ExceptT GrantError (StateM GrantTable) RoleBinding := do
  if (← get).bindings.contains binding.name then
    throw (.alreadyExists RoleBinding.kind binding.name)
  modify fun t => { t with bindings := t.bindings.insert binding.name binding }
  return binding

def getBinding (name : String) : ExceptT GrantError (StateM GrantTable) RoleBinding := do
  match (← get).bindings.get? name with
  | some binding => return binding
  | none => throw (.notFound RoleBinding.kind name)

def deleteBinding (name : String) : ExceptT GrantError (StateM GrantTable) Unit := do
  if !(← get).bindings.contains name then throw (.notFound RoleBinding.kind name)
  modify fun t => { t with bindings := t.bindings.erase name }

/-- The permissions of the role that a binding gives to the actor. -/
def granted (t : GrantTable) (actor : Actor) (binding : RoleBinding) : PermissionSet :=
  if binding.appliesTo actor then
    match t.roles.get? binding.role with
    | some role => role.permissions
    | none => ∅
  else ∅

/-- All permissions that bindings give to the actor. -/
def permissionsOf (t : GrantTable) (actor : Actor) : PermissionSet :=
  t.bindings.values.foldl (fun s binding => s.union (t.granted actor binding)) ∅

/-- The decision that follows from the table. -/
def decide (t : GrantTable) (q : AccessRequest) : Decision :=
  if q.actor.groups.any t.superusers.contains then .allow
  else if (t.permissionsOf q.actor).has q.required then .allow
  else .deny ("no role bound to \"" ++ q.actor.name ++ "\" grants " ++ q.required.text)

/-- The table as a keeper of grants. -/
def grants {m : Type → Type} (cell : Cell m GrantTable) : Grants m where
  createRole role := cell.access (createRole role)
  getRole name := cell.access (getRole name)
  deleteRole name := cell.access (deleteRole name)
  createBinding binding := cell.access (createBinding binding)
  getBinding name := cell.access (getBinding name)
  deleteBinding name := cell.access (deleteBinding name)

/-- The table as an authorizer. -/
def authorizer {m : Type → Type} (cell : Cell m GrantTable) : Authorizer m := fun q =>
  cell.access (do return .ok ((← get).decide q))

end GrantTable

end Tenancy
