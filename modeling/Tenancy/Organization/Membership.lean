import Tenancy.Organization.Role
import Tenancy.Time.Basic

/-!
# Memberships

A membership gives an actor a role in an organization.  Its resource is named for both.
-/

namespace Tenancy

structure Membership where
  organization : String
  member : String
  role : OrganizationRole
  joinedAt : Time
  invitedBy : Option String
  isActive : Bool
  /-- The member's position in the organization. -/
  title : Option String
  deriving DecidableEq

namespace Membership

/-- A new active membership. -/
def new (organization member : String) (role : OrganizationRole) (joinedAt : Time) : Membership :=
  ⟨organization, member, role, joinedAt, none, true, none⟩

/-- The name of the resource of the membership. -/
def objectName (s : Membership) : String := s.organization ++ "-" ++ s.member

end Membership

end Tenancy
