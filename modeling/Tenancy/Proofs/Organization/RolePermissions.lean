import Tenancy.Organization.Role
import Tenancy.Proofs.Access.PermissionSet
import Tenancy.Proofs.Organization.OwnerEffects

/-!
# What roles permit

A role permits what it adds and what the roles below it add, so roles are ordered by what they
permit.  About organizations they permit something of their own one only, and nothing about access
control.

* `OrganizationRole.has_permissions_iff`: what a role permits, collection by collection.
* `has_ownerPermissions_iff`: the owner role and the owner grant agree about the organization.
* `roles_ordered_and_confined`: what this says of all roles together.
-/

namespace Tenancy

namespace OrganizationRole

variable {r s : OrganizationRole} {organization : String} {q : Permission}

theorem le_trans {t : OrganizationRole} (hLower : r ≤ s) (hUpper : s ≤ t) : r ≤ t :=
  Nat.le_trans hLower hUpper

theorem viewer_le (r : OrganizationRole) : viewer ≤ r := by cases r <;> decide

theorem mem_all (r : OrganizationRole) : r ∈ all := by cases r <;> decide

theorem exists_iff {P : OrganizationRole → Prop} :
    (∃ r, P r) ↔ P viewer ∨ P member ∨ P admin ∨ P owner := by
  constructor
  · rintro ⟨r, h⟩
    cases r <;> simp [h]
  · rintro (h | h | h | h) <;> exact ⟨_, h⟩

theorem mem_permissions {p : Permission} : p ∈ (r.permissions organization).toList ↔
    ∃ s, s ≤ r ∧ p ∈ ownPermissions organization s := by
  simp [permissions, PermissionSet.ofList, PermissionSet.mem_insertAll, mem_all]

/-- A role has what the roles up to it add. -/
theorem has_permissions : (r.permissions organization).has q = true ↔
    ∃ s, s ≤ r ∧ ∃ p ∈ ownPermissions organization s, p.covers q = true := by
  simp only [PermissionSet.has_iff, mem_permissions]
  constructor
  · rintro ⟨p, ⟨s, hLe, hMem⟩, hCovers⟩
    exact ⟨s, hLe, p, hMem, hCovers⟩
  · rintro ⟨s, hLe, p, hMem, hCovers⟩
    exact ⟨p, ⟨s, hLe, hMem⟩, hCovers⟩

theorem has_permissions_mono (hLe : r ≤ s) (hHas : (r.permissions organization).has q = true) :
    (s.permissions organization).has q = true := by
  obtain ⟨t, hBelow, hCovered⟩ := has_permissions.1 hHas
  exact has_permissions.2 ⟨t, le_trans hBelow hLe, hCovered⟩

/-- What a role permits in an organization: everyone sees the organization, admins change it and
owners do all; members see memberships and invitations, and admins manage them; billing accounts are
the owner's. -/
def Permits (r : OrganizationRole) (organization : String) (q : Permission) : Prop :=
  match q.collection with
  | .organization => q.name = some organization ∧
      (q.verb = .get ∨ admin ≤ r ∧ q.verb = .update ∨ owner ≤ r)
  | .membership | .invitation => member ≤ r ∧ q.verb = .get ∨ admin ≤ r
  | .billingAccount => owner ≤ r
  | .role | .roleBinding => False

theorem has_permissions_iff :
    (r.permissions organization).has q = true ↔ r.Permits organization q := by
  rw [has_permissions, exists_iff, Permits]
  simp only [ownPermissions, List.mem_cons, List.not_mem_nil, or_false, exists_eq_or_imp,
    exists_eq_left, Permission.covers_iff, Permission.named, Permission.global, viewer_le,
    eq_comm (b := q.collection), eq_comm (b := q.verb), eq_comm (b := q.name)]
  cases q.collection with
  | organization => simp; tauto
  | billingAccount | invitation | membership | role | roleBinding => simp

/-- A role permits nothing about access control, and nothing about another organization or about
all of them. -/
theorem confined_of_has (hHas : (r.permissions organization).has q = true) :
    q.collection ≠ .role ∧ q.collection ≠ .roleBinding ∧
      (q.collection = .organization → q.name = some organization) := by
  rw [has_permissions_iff, Permits] at hHas
  refine ⟨fun hRole => ?_, fun hBinding => ?_, fun hOrganization => ?_⟩
  · rw [hRole] at hHas
    exact hHas
  · rw [hBinding] at hHas
    exact hHas
  · rw [hOrganization] at hHas
    exact hHas.1

/-- A role does all there is to do with memberships just if it manages members. -/
theorem has_all_memberships_iff {name : Option String} :
    (∀ verb, (r.permissions organization).has ⟨.membership, verb, name⟩ = true) ↔
      r.canManageMembers = true := by
  simp only [has_permissions_iff, Permits, canManageMembers, decide_eq_true_iff]
  constructor
  · intro hAll
    exact (hAll .delete).resolve_left nofun
  · exact fun hAdmin _ => .inr hAdmin

/-- A role does all there is to do with billing accounts just if it manages billing. -/
theorem has_all_billingAccounts_iff {name : Option String} :
    (∀ verb, (r.permissions organization).has ⟨.billingAccount, verb, name⟩ = true) ↔
      r.canManageBilling = true := by
  simp only [has_permissions_iff, Permits, canManageBilling, decide_eq_true_iff]
  exact ⟨fun hAll => hAll .all, fun hOwner _ => hOwner⟩

end OrganizationRole

/-! ## The owner grant -/

/-- About its organization, the owner may do what the permissions of the owner grant allow. -/
theorem has_ownerPermissions_iff {organization : String} {q : Permission}
    (hCollection : q.collection = .organization) :
    (OrganizationRole.owner.permissions organization).has q = true ↔
      (ownerPermissions .organization organization).has q = true := by
  have hOwner : OrganizationRole.owner ≤ .owner := by decide
  rw [OrganizationRole.has_permissions_iff, OrganizationRole.Permits, ownerPermissions,
    PermissionSet.has_singleton, Permission.named_all_covers_iff, hCollection]
  simp [hOwner]

/-- **Roles are ordered by what they permit and confined to their organization**: the higher of two
roles permits what the lower one does; none permits anything about access control or about other
organizations; the owner role that is made with an organization permits what its owners may do; and
who may do everything with memberships, or with billing accounts, is said to manage them. -/
theorem roles_ordered_and_confined :
    (∀ (organization : String) (r s : OrganizationRole) (q : Permission), r ≤ s →
      (r.permissions organization).has q = true → (s.permissions organization).has q = true) ∧
    (∀ (organization : String) (r : OrganizationRole) (q : Permission),
      (r.permissions organization).has q = true → q.collection ≠ .role ∧
        q.collection ≠ .roleBinding ∧
          (q.collection = .organization → q.name = some organization)) ∧
    (∀ (σ α : Type) (p : Part σ GrantTable) (call : Call) (resource : Resource α) (s : σ),
      (p.read s).roles.contains (ownerName .organization resource.name) = false →
        ∃ role, runOn ((ownerRoleEffect (GrantTable.grants p.cell) .organization).perform call
              resource) s =
            (.ok (), p.write { p.read s with
              roles := (p.read s).roles.insert (ownerName .organization resource.name) role } s) ∧
          ∀ q : Permission, q.collection = .organization →
            ((OrganizationRole.owner.permissions resource.name).has q = true ↔
              role.permissions.has q = true)) ∧
    ∀ (organization : String) (r : OrganizationRole) (name : Option String),
      ((∀ verb, (r.permissions organization).has ⟨.membership, verb, name⟩ = true) ↔
        r.canManageMembers = true) ∧
      ((∀ verb, (r.permissions organization).has ⟨.billingAccount, verb, name⟩ = true) ↔
        r.canManageBilling = true) := by
  refine ⟨fun _ _ _ _ => OrganizationRole.has_permissions_mono,
    fun _ _ _ => OrganizationRole.confined_of_has, fun σ α p call resource s hAbsent => ?_,
    fun _ _ _ => ⟨OrganizationRole.has_all_memberships_iff,
      OrganizationRole.has_all_billingAccounts_iff⟩⟩
  refine ⟨ownerRole .organization resource.name call.time, ?_, fun q hCollection =>
    has_ownerPermissions_iff hCollection⟩
  rw [perform_ownerRole, hAbsent]
  rfl

end Tenancy
