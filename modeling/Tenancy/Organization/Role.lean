import Tenancy.Access.PermissionSet

/-!
# Roles in an organization

Viewer, member, admin and owner, each with all that the one before it may do.  What concerns the
organization itself is granted under its name alone; memberships, invitations and billing accounts
have names of their own, so they are granted as collections.
-/

namespace Tenancy

inductive OrganizationRole where
  | viewer
  | member
  | admin
  | owner
  deriving DecidableEq, Repr, Inhabited

namespace OrganizationRole

def all : List OrganizationRole := [.viewer, .member, .admin, .owner]

/-- The role of a new member for whom none is chosen. -/
def standard : OrganizationRole := .member

def rank : OrganizationRole → Nat
  | .viewer => 1
  | .member => 2
  | .admin => 3
  | .owner => 4

instance : LE OrganizationRole := ⟨fun r s => r.rank ≤ s.rank⟩

instance (r s : OrganizationRole) : Decidable (r ≤ s) :=
  inferInstanceAs (Decidable (r.rank ≤ s.rank))

def text : OrganizationRole → String
  | .viewer => "viewer"
  | .member => "member"
  | .admin => "admin"
  | .owner => "owner"

/-- The role that a text names, in any letter case. -/
def parse? (s : String) : Option OrganizationRole := keyword? (all.map fun r => (r.text, r)) s

def isAdmin (r : OrganizationRole) : Bool := OrganizationRole.admin ≤ r

def canManageMembers (r : OrganizationRole) : Bool := OrganizationRole.admin ≤ r

def canManageBilling (r : OrganizationRole) : Bool := OrganizationRole.owner ≤ r

/-- What a role adds to the role below it, in the organization of the given name. -/
def ownPermissions (organization : String) : OrganizationRole → List Permission
  | .viewer => [.named .organization .get organization]
  | .member => [.global .membership .get, .global .invitation .get]
  | .admin =>
    [.named .organization .update organization, .global .membership .all, .global .invitation .all]
  | .owner => [.named .organization .all organization, .global .billingAccount .all]

/-- All that the role may do in the organization of the given name. -/
def permissions (r : OrganizationRole) (organization : String) : PermissionSet :=
  .ofList ((all.filter (· ≤ r)).flatMap (ownPermissions organization))

end OrganizationRole

end Tenancy
