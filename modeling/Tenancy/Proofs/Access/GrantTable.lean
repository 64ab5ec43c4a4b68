import Tenancy.Access.GrantTable
import Tenancy.Proofs.Operation
import Tenancy.Proofs.SortedMap

/-!
# Writing grants

What each write of the table of grants does, the failures included.  A write that fails leaves the
table as it is, and a write of a role leaves the bindings, as one of a binding leaves the roles.

* `GrantWrite.apply_outcome`: the ends of a write.
-/

namespace Tenancy

namespace GrantTable

variable (t : GrantTable)

theorem runOn_createRole (role : Role) :
    runOn (createRole role) t =
      if t.roles.contains role.name then (.error (.alreadyExists Role.kind role.name), t)
      else (.ok role, { t with roles := t.roles.insert role.name role }) := by
  simp only [createRole, runOn_bind, runOn_get]
  split <;> simp_all

theorem runOn_deleteRole (name : String) :
    runOn (deleteRole name) t =
      if t.roles.contains name then (.ok (), { t with roles := t.roles.erase name })
      else (.error (.notFound Role.kind name), t) := by
  simp only [deleteRole, runOn_bind, runOn_get]
  cases hStored : t.roles.contains name <;> simp

theorem runOn_createBinding (binding : RoleBinding) :
    runOn (createBinding binding) t =
      if t.bindings.contains binding.name then
        (.error (.alreadyExists RoleBinding.kind binding.name), t)
      else (.ok binding, { t with bindings := t.bindings.insert binding.name binding }) := by
  simp only [createBinding, runOn_bind, runOn_get]
  split <;> simp_all

theorem runOn_deleteBinding (name : String) :
    runOn (deleteBinding name) t =
      if t.bindings.contains name then (.ok (), { t with bindings := t.bindings.erase name })
      else (.error (.notFound RoleBinding.kind name), t) := by
  simp only [deleteBinding, runOn_bind, runOn_get]
  cases hStored : t.bindings.contains name <;> simp

end GrantTable

/-! ## Writes -/

inductive GrantWrite where
  | createRole (role : Role)
  | deleteRole (name : String)
  | createBinding (binding : RoleBinding)
  | deleteBinding (name : String)

namespace GrantWrite

def name : GrantWrite → String
  | .createRole role => role.name
  | .deleteRole name => name
  | .createBinding binding => binding.name
  | .deleteBinding name => name

def run {m : Type → Type} [Monad m] (grants : Grants m) : GrantWrite → ExceptT GrantError m Unit
  | .createRole role => do let _ ← grants.createRole role
  | .deleteRole name => grants.deleteRole name
  | .createBinding binding => do let _ ← grants.createBinding binding
  | .deleteBinding name => grants.deleteBinding name

def IsCreation : GrantWrite → Prop
  | .createRole _ | .createBinding _ => True
  | .deleteRole _ | .deleteBinding _ => False

def apply (w : GrantWrite) (t : GrantTable) : Except GrantError Unit × GrantTable :=
  runOn (w.run (GrantTable.grants Cell.whole)) t

/-- The table after some writes, whatever their results are. -/
def applyAll (writes : List GrantWrite) (t : GrantTable) : GrantTable :=
  writes.foldl (fun t w => (w.apply t).2) t

/-- The ends of a write: it fails and changes nothing, or it adds or removes one grant. -/
inductive Outcome (t : GrantTable) : GrantWrite → Except GrantError Unit × GrantTable → Prop
  | failed (w : GrantWrite) (e : GrantError) : Outcome t w (.error e, t)
  | roleCreated (role : Role) (hFree : t.roles.get? role.name = none) :
      Outcome t (.createRole role) (.ok (), { t with roles := t.roles.insert role.name role })
  | roleDeleted (name : String) :
      Outcome t (.deleteRole name) (.ok (), { t with roles := t.roles.erase name })
  | bindingCreated (binding : RoleBinding) (hFree : t.bindings.get? binding.name = none) :
      Outcome t (.createBinding binding)
        (.ok (), { t with bindings := t.bindings.insert binding.name binding })
  | bindingDeleted (name : String) :
      Outcome t (.deleteBinding name) (.ok (), { t with bindings := t.bindings.erase name })

theorem apply_outcome (w : GrantWrite) (t : GrantTable) : Outcome t w (w.apply t) := by
  cases w with
  | createRole role =>
    simp only [apply, run, GrantTable.grants, bind_pure_comp, runOn_map, runOn_whole,
      GrantTable.runOn_createRole]
    cases hStored : t.roles.contains role.name with
    | true => exact .failed _ _
    | false => exact .roleCreated role (SortedMap.contains_eq_false_iff.1 hStored)
  | deleteRole name =>
    simp only [apply, run, GrantTable.grants, runOn_whole, GrantTable.runOn_deleteRole]
    cases t.roles.contains name with
    | true => exact .roleDeleted name
    | false => exact .failed _ _
  | createBinding binding =>
    simp only [apply, run, GrantTable.grants, bind_pure_comp, runOn_map, runOn_whole,
      GrantTable.runOn_createBinding]
    cases hStored : t.bindings.contains binding.name with
    | true => exact .failed _ _
    | false => exact .bindingCreated binding (SortedMap.contains_eq_false_iff.1 hStored)
  | deleteBinding name =>
    simp only [apply, run, GrantTable.grants, runOn_whole, GrantTable.runOn_deleteBinding]
    cases t.bindings.contains name with
    | true => exact .bindingDeleted name
    | false => exact .failed _ _

end GrantWrite

end Tenancy
