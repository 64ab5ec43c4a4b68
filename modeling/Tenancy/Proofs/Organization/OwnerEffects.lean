import Tenancy.Organization.Ownership
import Tenancy.Proofs.Access.GrantTable
import Tenancy.Proofs.Store.Provision

/-!
# Owner grants as side effects

What the side effects that make the owner grants of a resource do to a table of grants.  They are
performed both or not at all: if either grant is there already, the table is in the end as it was.

* `Store.provision_owner`: how provisioning with owner grants ends.
* `Store.undo_owner`: undoing takes away both grants and never fails.
-/

namespace Tenancy

variable {σ α : Type}

namespace GrantTable

def withOwner (t : GrantTable) (collection : Collection) (name creator : String) (time : Time) :
    GrantTable :=
  { t with
    roles := t.roles.insert (ownerName collection name) (ownerRole collection name time)
    bindings :=
      t.bindings.insert (ownerName collection name) (ownerBinding collection name creator time) }

def withoutOwner (t : GrantTable) (collection : Collection) (name : String) : GrantTable :=
  { t with
    roles := t.roles.erase (ownerName collection name)
    bindings := t.bindings.erase (ownerName collection name) }

end GrantTable

/-- The side effects that make the owner grants of a resource in the table at `p`. -/
def ownerEffects (p : Part σ GrantTable) (collection : Collection) :
    List (SideEffect (StateM σ) α) :=
  [ownerRoleEffect (GrantTable.grants p.cell) collection,
    ownerBindingEffect (GrantTable.grants p.cell) collection]

variable (p : Part σ GrantTable) (collection : Collection) (call : Call) (r : Resource α) (s : σ)

theorem runOn_ignoringAbsence (x : ExceptT GrantError (StateM σ) Unit) :
    runOn (ignoringAbsence x) s =
      match runOn x s with
      | (.ok _, t) => (.ok (), t)
      | (.error e, t) => (if e.isNotFound then .ok () else .error e.toStoreError, t) := by
  simp only [ignoringAbsence, runOn_bind, runOn_lift, run_run_eq_runOn]
  rcases runOn x s with ⟨e | _, t⟩
  · dsimp only
    split <;> rfl
  · rfl

@[simp] theorem grantCollection_role : grantCollection Role.kind = .role := by decide

@[simp] theorem grantCollection_binding : grantCollection RoleBinding.kind = .roleBinding :=
  if_pos rfl

theorem perform_ownerRole :
    runOn ((ownerRoleEffect (GrantTable.grants p.cell) collection).perform call r) s =
      if (p.read s).roles.contains (ownerName collection r.name) then
        (.error (.alreadyExists .role (ownerName collection r.name)), s)
      else
        (.ok (), p.write { p.read s with
          roles := (p.read s).roles.insert (ownerName collection r.name)
            (ownerRole collection r.name call.time) } s) := by
  simp only [ownerRoleEffect, GrantTable.grants, runOn_bind, runOn_adapt, runOn_cell,
    GrantTable.runOn_createRole, ownerRole]
  cases (p.read s).roles.contains (ownerName collection r.name) with
  | true =>
    simp only [if_true, mapError_error, Part.write_read, GrantError.toStoreError,
      grantCollection_role]
  | false => rfl

theorem perform_ownerBinding :
    runOn ((ownerBindingEffect (GrantTable.grants p.cell) collection).perform call r) s =
      if (p.read s).bindings.contains (ownerName collection r.name) then
        (.error (.alreadyExists .roleBinding (ownerName collection r.name)), s)
      else
        (.ok (), p.write { p.read s with
          bindings := (p.read s).bindings.insert (ownerName collection r.name)
            (ownerBinding collection r.name call.actor.name call.time) } s) := by
  simp only [ownerBindingEffect, GrantTable.grants, runOn_bind, runOn_adapt, runOn_cell,
    GrantTable.runOn_createBinding, ownerBinding]
  cases (p.read s).bindings.contains (ownerName collection r.name) with
  | true =>
    simp only [if_true, mapError_error, Part.write_read, GrantError.toStoreError,
      grantCollection_binding]
  | false => rfl

theorem undo_ownerRole :
    runOn ((ownerRoleEffect (GrantTable.grants p.cell) collection).undo call r) s =
      (.ok (), p.write { p.read s with
        roles := (p.read s).roles.erase (ownerName collection r.name) } s) := by
  simp only [ownerRoleEffect, runOn_ignoringAbsence, GrantTable.grants, runOn_cell,
    GrantTable.runOn_deleteRole]
  cases hStored : (p.read s).roles.contains (ownerName collection r.name) with
  | true => rfl
  | false =>
    rw [SortedMap.erase_of_get?_eq_none (SortedMap.contains_eq_false_iff.1 hStored)]
    simp only [Bool.false_eq_true, if_false, GrantError.isNotFound, if_true]

theorem undo_ownerBinding :
    runOn ((ownerBindingEffect (GrantTable.grants p.cell) collection).undo call r) s =
      (.ok (), p.write { p.read s with
        bindings := (p.read s).bindings.erase (ownerName collection r.name) } s) := by
  simp only [ownerBindingEffect, runOn_ignoringAbsence, GrantTable.grants, runOn_cell,
    GrantTable.runOn_deleteBinding]
  cases hStored : (p.read s).bindings.contains (ownerName collection r.name) with
  | true => rfl
  | false =>
    rw [SortedMap.erase_of_get?_eq_none (SortedMap.contains_eq_false_iff.1 hStored)]
    simp only [Bool.false_eq_true, if_false, GrantError.isNotFound, if_true]

namespace Store

theorem undo_owner :
    (undoAll call r (ownerEffects p collection)).run s =
      ([none, none], p.write ((p.read s).withoutOwner collection r.name) s) := by
  simp only [ownerEffects, run_undoAll_cons, undo_ownerRole, undo_ownerBinding, run_undoAll_nil,
    Part.read_write, Part.write_write, problem?_ok]
  rfl

/-- Either both grants are made, or the resource is deleted in the state in which the provisioning
began. -/
theorem provision_owner (inner : Store (StateM σ) α) :
    (p.read s).roles.get? (ownerName collection r.name) = none ∧
        (p.read s).bindings.get? (ownerName collection r.name) = none ∧
        runOn (provision inner call r [] (ownerEffects p collection)) s =
          (.ok (), p.write ((p.read s).withOwner collection r.name call.actor.name call.time) s) ∨
      ∃ e, runOn (provision inner call r [] (ownerEffects p collection)) s =
        (.error e, (runOn (inner.delete call r.name) s).2) := by
  simp only [ownerEffects, runOn_provision_cons, perform_ownerRole]
  cases hRole : (p.read s).roles.contains (ownerName collection r.name) with
  | true =>
    simp only [if_true, run_compensate, run_undoAll_nil]
    exact .inr ⟨_, rfl⟩
  | false =>
    have hRole := SortedMap.contains_eq_false_iff.1 hRole
    simp only [Bool.false_eq_true, if_false, perform_ownerBinding, Part.read_write,
      List.nil_append]
    cases hBinding : (p.read s).bindings.contains (ownerName collection r.name) with
    | true =>
      simp only [if_true, run_compensate, run_undoAll_cons, undo_ownerRole, run_undoAll_nil,
        Part.read_write, Part.write_write, SortedMap.erase_insert hRole]
      -- The table without the new role is the one that there was.
      have hSame : p.write { p.read s with roles := (p.read s).roles } s = s := p.write_read s
      rw [hSame]
      exact .inr ⟨_, rfl⟩
    | false =>
      refine .inl ⟨hRole, SortedMap.contains_eq_false_iff.1 hBinding, ?_⟩
      simp only [Bool.false_eq_true, if_false, runOn_provision_nil, Part.write_write]
      rfl

end Store

end Tenancy
